/-
The SLIP driver (`ComSlip.c`): messages to and from the radio module, over the console.

`RxBuffer` is what it points to, and `ComSlip_SetRxBuffer` is given a buffer. A message that is
indicated is the bytes of the buffer up to `RxIndex`; what the client returns is not used.

The driver is related to the receiver of `Lib.Slip`, whose state is what the buffer and the index
stand for. Each byte keeps the relation, so what is known of that receiver holds of the driver, over
any receptions.
-/
import Signpost.Packet
import Signpost.Lib.Memory
import Signpost.Lib.Slip

namespace Signpost

open Lib

def slipEnd : UInt8 := 0xC0
def slipEsc : UInt8 := 0xDB
def slipEscEnd : UInt8 := 0xDC
def slipEscEsc : UInt8 := 0xDD

/-- `NUMBER_OF_WAKEUP_CHARS` -/
def numberOfWakeupChars : Nat := 40

/-- `SLIPDEC_*_STATE` -/
inductive SlipDecState
  | idle
  | start
  | inFrame
  | esc
  deriving DecidableEq

/-- `TComSlip`; of the client, whether there is one. -/
structure ComSlip where
  rxIndication : Bool
  rxState : SlipDecState
  rxIndex : UInt16
  rxBufferSize : UInt16
  rxBuffer : Option (Mem UInt8)

namespace ComSlip

/-- `ComSlip_Init` -/
def init (s : ComSlip) : ComSlip :=
  { s with rxState := .idle, rxIndex := 0, rxBuffer := none, rxBufferSize := 0 }

/-- `ComSlip_RegisterClient` -/
def registerClient (s : ComSlip) : ComSlip := { s with rxIndication := true }

/-- `ComSlip_SetRxBuffer` -/
def setRxBuffer (s : ComSlip) (rxBuffer : Mem UInt8) (rxBufferSize : UInt16) : ComSlip × Bool :=
  if s.rxState = .idle ∧ s.rxIndication then
    ({ s with rxBuffer := some rxBuffer, rxBufferSize := rxBufferSize, rxState := .start }, true)
  else (s, false)

/-- `ComSlip_StoreRxByte` -/
def storeRxByte (s : ComSlip) (rxByte : UInt8) : ComSlip :=
  if s.rxIndex < s.rxBufferSize then
    { s with rxBuffer := s.rxBuffer.map (·.copy s.rxIndex.toNat [rxByte]), rxIndex := s.rxIndex + 1 }
  else s

/-- What `ComSlip_ProcessRxMsg` indicates. -/
def indicated (s : ComSlip) : List Bytes :=
  if s.rxIndication then (s.rxBuffer.map (·.read 0 s.rxIndex.toNat)).toList else []

/-- `ComSlip_ProcessRxMsg` -/
def processRxMsg (s : ComSlip) : Bool := s.rxBuffer.isSome

/-- `ComSlip_ProcessRxByte`, with the messages that are indicated. -/
def processRxByte (s : ComSlip) (rxByte : UInt8) : ComSlip × List Bytes :=
  match s.rxState with
  | .start => (if rxByte = slipEnd then { s with rxIndex := 0, rxState := .inFrame } else s, [])
  | .inFrame =>
    if rxByte = slipEnd then
      if s.rxIndex > 0 then
        ({ s with rxState := if s.processRxMsg then .start else .idle, rxIndex := 0 }, s.indicated)
      else ({ s with rxIndex := 0 }, [])
    else if rxByte = slipEsc then ({ s with rxState := .esc }, [])
    else (s.storeRxByte rxByte, [])
  | .esc =>
    if rxByte = slipEscEnd then ({ s.storeRxByte slipEnd with rxState := .inFrame }, [])
    else if rxByte = slipEscEsc then ({ s.storeRxByte slipEsc with rxState := .inFrame }, [])
    else ({ s with rxState := .start }, [])
  | .idle => (s, [])

/-- `receive_message`, with the `len` bytes of `StrBuf`. -/
def receiveMessage (s : ComSlip) (received : Bytes) : ComSlip × List Bytes :=
  received.foldl (fun (s, os) rxByte => let r := s.processRxByte rxByte; (r.1, os ++ r.2)) (s, [])

def receiveMessages (s : ComSlip) (receptions : List Bytes) : ComSlip × List Bytes :=
  receptions.foldl (fun (s, os) received => let r := s.receiveMessage received; (r.1, os ++ r.2)) (s, [])

end ComSlip

/-- What `ComSlip_SendMessage` writes to the console. -/
def comSlipSendMessage (msg : Bytes) : Bytes :=
  List.replicate numberOfWakeupChars slipEnd ++
    msg.flatMap (fun b =>
      if b = slipEnd then [slipEsc, slipEscEnd] else if b = slipEsc then [slipEsc, slipEscEsc] else [b]) ++
    [slipEnd]

/-! ## The receiver as one of messages -/

/-- The characters of `ComSlip.c`. -/
def slipChars : Slip.Chars UInt8 where
  «end» := slipEnd
  esc := slipEsc
  escEnd := slipEscEnd
  escEsc := slipEscEsc
  esc_ne_end := by decide
  end_ne_escEnd := by decide
  end_ne_escEsc := by decide
  escEsc_ne_escEnd := by decide

theorem slip_step_start (size : Nat) (b : UInt8) :
    Slip.step slipChars size .start b = if b = slipEnd then (.frame [], []) else (.start, []) := rfl

theorem slip_step_frame (size : Nat) (stored : Bytes) (b : UInt8) :
    Slip.step slipChars size (.frame stored) b =
      if b = slipEnd then (if stored = [] then (.frame [], []) else (.start, [stored]))
      else if b = slipEsc then (.escaped stored, [])
      else (.frame (Slip.store size stored b), []) := rfl

theorem slip_step_escaped (size : Nat) (stored : Bytes) (b : UInt8) :
    Slip.step slipChars size (.escaped stored) b =
      if b = slipEscEnd then (.frame (Slip.store size stored slipEnd), [])
      else if b = slipEscEsc then (.frame (Slip.store size stored slipEsc), [])
      else (.start, []) := rfl

theorem comSlipSendMessage_eq (msg : Bytes) : comSlipSendMessage msg = Slip.send slipChars 40 msg := rfl

namespace ComSlip

variable {s : ComSlip} {b : UInt8} {size : Nat}

/-- The receiver is enabled, with a client and a buffer of this size, and in the buffer is no more
than it holds. -/
structure Receives (size : Nat) (s : ComSlip) : Prop where
  enabled : s.rxState ≠ .idle
  client : s.rxIndication = true
  buffer : s.rxBuffer.isSome = true
  room : s.rxBufferSize.toNat = size
  fits : s.rxIndex.toNat ≤ size

def stored (s : ComSlip) : Bytes := (s.rxBuffer.map (·.read 0 s.rxIndex.toNat)).getD []

/-- The receiver as one of messages. -/
def rx (s : ComSlip) : Slip.Rx UInt8 :=
  match s.rxState with
  | .idle | .start => .start
  | .inFrame => .frame s.stored
  | .esc => .escaped s.stored

theorem Receives.length_stored (h : Receives size s) : s.stored.length = s.rxIndex.toNat := by
  obtain ⟨m, hm⟩ := Option.isSome_iff_exists.mp h.buffer
  rw [stored, hm, Option.map_some, Option.getD_some, Mem.length_read]

theorem Receives.indicated_eq (h : Receives size s) : s.indicated = [s.stored] := by
  obtain ⟨m, hm⟩ := Option.isSome_iff_exists.mp h.buffer
  rw [indicated, if_pos h.client, stored, hm]
  rfl

theorem storeRxByte_rxState (s : ComSlip) (b : UInt8) : (s.storeRxByte b).rxState = s.rxState := by
  unfold ComSlip.storeRxByte
  split <;> rfl

theorem Receives.storeRxByte (h : Receives size s) (b : UInt8) :
    Receives size (s.storeRxByte b) ∧ (s.storeRxByte b).stored = Slip.store size s.stored b := by
  have hfull : s.rxIndex < s.rxBufferSize ↔ s.stored.length < size := by
    rw [UInt16.lt_iff_toNat_lt, h.room, h.length_stored]
  rw [ComSlip.storeRxByte, Slip.store]
  split
  · next hlt =>
    obtain ⟨m, hm⟩ := Option.isSome_iff_exists.mp h.buffer
    have hsize := s.rxBufferSize.toNat_lt
    have hroom := hfull.mp hlt
    have hnext : (s.rxIndex + 1).toNat = s.rxIndex.toNat + 1 := by
      have hindex := h.length_stored
      have hbuf := h.room
      rw [UInt16.toNat_add]
      exact Nat.mod_eq_of_lt (by simp; omega)
    rw [if_pos hroom]
    refine ⟨⟨h.enabled, h.client, by rw [Option.isSome_map, h.buffer], h.room, ?_⟩, ?_⟩
    · show (s.rxIndex + 1).toNat ≤ size
      rw [hnext, ← h.length_stored]
      exact hroom
    · simp only [stored, hm, Option.map_some, Option.getD_some, hnext]
      rw [Mem.read_add, Nat.zero_add, Mem.read_copy_disjoint (.inl (Nat.le_of_eq (Nat.zero_add _)))]
      congr 1
      exact Mem.read_copy m s.rxIndex.toNat [b]
  · next hge =>
    rw [if_neg fun hroom => hge (hfull.mpr hroom)]
    exact ⟨h, rfl⟩

theorem Receives.state (h : Receives size s) {state : SlipDecState} (hstate : state ≠ .idle) :
    Receives size { s with rxState := state } := ⟨hstate, h.client, h.buffer, h.room, h.fits⟩

theorem Receives.clear (h : Receives size s) : Receives size { s with rxIndex := 0 } :=
  ⟨h.enabled, h.client, h.buffer, h.room, Nat.zero_le size⟩

theorem Receives.stored_clear (h : Receives size s) : ({ s with rxIndex := 0 } : ComSlip).stored = [] :=
  List.length_eq_zero_iff.mp h.clear.length_stored

theorem Receives.rxIndex_pos_iff (h : Receives size s) : s.rxIndex > 0 ↔ s.stored ≠ [] := by
  rw [Ne, ← List.length_eq_zero_iff, h.length_stored, gt_iff_lt, UInt16.lt_iff_toNat_lt]
  exact Nat.pos_iff_ne_zero

/-- **The driver takes a byte as the receiver of messages does.** -/
theorem Receives.processRxByte (h : Receives size s) (b : UInt8) :
    Receives size (s.processRxByte b).1 ∧
      Slip.step slipChars size s.rx b = ((s.processRxByte b).1.rx, (s.processRxByte b).2) := by
  cases hstate : s.rxState with
  | idle => exact absurd hstate h.enabled
  | start =>
    have hrx : s.rx = .start := by rw [rx, hstate]
    rw [hrx, slip_step_start]
    simp only [ComSlip.processRxByte, hstate]
    by_cases hb : b = slipEnd
    · rw [if_pos hb, if_pos hb]
      exact ⟨h.clear.state SlipDecState.noConfusion, congrArg (fun m => (Slip.Rx.frame m, _)) h.stored_clear.symm⟩
    · rw [if_neg hb, if_neg hb, hrx]
      exact ⟨h, rfl⟩
  | inFrame =>
    have hrx : s.rx = .frame s.stored := by rw [rx, hstate]
    rw [hrx, slip_step_frame]
    simp only [ComSlip.processRxByte, hstate]
    by_cases hb : b = slipEnd
    · rw [if_pos hb, if_pos hb]
      by_cases hstored : s.stored = []
      · rw [if_neg fun hlt => h.rxIndex_pos_iff.mp hlt hstored, if_pos hstored]
        exact ⟨h.clear.state SlipDecState.noConfusion, congrArg (fun m => (Slip.Rx.frame m, _)) h.stored_clear.symm⟩
      · rw [if_pos (h.rxIndex_pos_iff.mpr hstored), if_neg hstored, processRxMsg, if_pos h.buffer, h.indicated_eq]
        exact ⟨h.clear.state SlipDecState.noConfusion, rfl⟩
    · rw [if_neg hb, if_neg hb]
      by_cases hesc : b = slipEsc
      · rw [if_pos hesc, if_pos hesc]
        exact ⟨h.state SlipDecState.noConfusion, rfl⟩
      · rw [if_neg hesc, if_neg hesc]
        obtain ⟨hreceives, hstore⟩ := h.storeRxByte b
        refine ⟨hreceives, ?_⟩
        rw [rx, storeRxByte_rxState, hstate, ← hstore]
  | esc =>
    have hrx : s.rx = .escaped s.stored := by rw [rx, hstate]
    rw [hrx, slip_step_escaped]
    simp only [ComSlip.processRxByte, hstate]
    by_cases hend : b = slipEscEnd
    · rw [if_pos hend, if_pos hend]
      obtain ⟨hreceives, hstore⟩ := h.storeRxByte slipEnd
      exact ⟨hreceives.state SlipDecState.noConfusion, congrArg (fun m => (Slip.Rx.frame m, _)) hstore.symm⟩
    · rw [if_neg hend, if_neg hend]
      by_cases hesc : b = slipEscEsc
      · rw [if_pos hesc, if_pos hesc]
        obtain ⟨hreceives, hstore⟩ := h.storeRxByte slipEsc
        exact ⟨hreceives.state SlipDecState.noConfusion, congrArg (fun m => (Slip.Rx.frame m, _)) hstore.symm⟩
      · rw [if_neg hesc, if_neg hesc]
        exact ⟨h.state SlipDecState.noConfusion, rfl⟩

/-! ## Receptions -/

theorem foldl_outputs {S E O : Type} (f : S → E → S × List O) (es : List E) (s : S) (os : List O) :
    es.foldl (fun (s, os) e => let r := f s e; (r.1, os ++ r.2)) (s, os) =
      ((es.foldl (fun (s, os) e => let r := f s e; (r.1, os ++ r.2)) (s, [])).1,
        os ++ (es.foldl (fun (s, os) e => let r := f s e; (r.1, os ++ r.2)) (s, [])).2) := by
  induction es generalizing s os with
  | nil => simp
  | cons e es ih =>
    rw [List.foldl_cons, List.foldl_cons, ih, ih _ ([] ++ (f s e).2)]
    simp

theorem receiveMessage_cons (s : ComSlip) (b : UInt8) (bs : Bytes) :
    s.receiveMessage (b :: bs) = (((s.processRxByte b).1.receiveMessage bs).1,
      (s.processRxByte b).2 ++ ((s.processRxByte b).1.receiveMessage bs).2) :=
  foldl_outputs processRxByte bs (s.processRxByte b).1 (s.processRxByte b).2

theorem receiveMessages_cons (s : ComSlip) (received : Bytes) (receptions : List Bytes) :
    s.receiveMessages (received :: receptions) = (((s.receiveMessage received).1.receiveMessages receptions).1,
      (s.receiveMessage received).2 ++ ((s.receiveMessage received).1.receiveMessages receptions).2) :=
  foldl_outputs receiveMessage receptions (s.receiveMessage received).1 (s.receiveMessage received).2

theorem Receives.receiveMessage (h : Receives size s) (received : Bytes) :
    Receives size (s.receiveMessage received).1 ∧
      Slip.run slipChars size s.rx received = ((s.receiveMessage received).1.rx, (s.receiveMessage received).2) := by
  induction received generalizing s with
  | nil => exact ⟨h, rfl⟩
  | cons b bs ih =>
    obtain ⟨hb, hstep⟩ := h.processRxByte b
    obtain ⟨hbs, hrun⟩ := ih hb
    rw [receiveMessage_cons, Slip.run, hstep]
    simp only [hrun]
    exact ⟨hbs, trivial⟩

theorem Receives.receiveMessages (h : Receives size s) (receptions : List Bytes) :
    Slip.run slipChars size s.rx receptions.flatten =
      ((s.receiveMessages receptions).1.rx, (s.receiveMessages receptions).2) := by
  induction receptions generalizing s with
  | nil => rfl
  | cons received receptions ih =>
    obtain ⟨hreceived, hrun⟩ := h.receiveMessage received
    rw [receiveMessages_cons, List.flatten_cons, Slip.run_append, hrun]
    simp only [ih hreceived]

/-- The driver after `ComSlip_Init`, `ComSlip_RegisterClient` and `ComSlip_SetRxBuffer`. -/
def enable (s : ComSlip) (rxBuffer : Mem UInt8) (rxBufferSize : UInt16) : ComSlip :=
  (s.init.registerClient.setRxBuffer rxBuffer rxBufferSize).1

theorem enable_receives (s : ComSlip) (rxBuffer : Mem UInt8) (rxBufferSize : UInt16) :
    Receives rxBufferSize.toNat (s.enable rxBuffer rxBufferSize) :=
  ⟨SlipDecState.noConfusion, rfl, rfl, rfl, Nat.zero_le _⟩

theorem eq_stored_of_mem_pending {s : ComSlip} {m : Bytes} (h : m ∈ Slip.pending s.rx) : m = s.stored := by
  unfold rx at h
  cases hstate : s.rxState with
  | inFrame =>
    simp only [hstate, Slip.pending] at h
    split at h
    · cases h
    · exact List.mem_singleton.mp h
  | idle | start | esc =>
    simp only [hstate, Slip.pending] at h
    cases h

/-- **Every message that is sent is indicated**, whatever came before, in order, and however the
bytes are split over receptions: cut to the buffer, and none where nothing is left. At most one
message more is indicated first, what is stored of the bytes that came before. -/
theorem messages_indicated (s : ComSlip) (rxBuffer : Mem UInt8) (rxBufferSize : UInt16) (before : Bytes)
    (messages receptions : List Bytes) (h : receptions.flatten = before ++ messages.flatMap comSlipSendMessage) :
    ∃ left : List Bytes, left.length ≤ 1 ∧
      (∀ m ∈ left, m = ((s.enable rxBuffer rxBufferSize).receiveMessage before).1.stored) ∧
      ((s.enable rxBuffer rxBufferSize).receiveMessages receptions).2 =
        ((s.enable rxBuffer rxBufferSize).receiveMessage before).2 ++ left ++
          messages.flatMap (Slip.given rxBufferSize.toNat) := by
  have hreceives := enable_receives s rxBuffer rxBufferSize
  obtain ⟨hbefore, hrun⟩ := hreceives.receiveMessage before
  obtain ⟨left, hleft, hsends⟩ := Slip.run_sends slipChars rxBufferSize.toNat (n := 40) (by decide)
    ((s.enable rxBuffer rxBufferSize).receiveMessage before).1.rx messages
  refine ⟨left, Nat.le_trans hleft.length_le (Slip.length_pending_le _), fun m hm =>
    eq_stored_of_mem_pending (hleft.subset hm), ?_⟩
  have hall := hreceives.receiveMessages receptions
  rw [h, Slip.run_append, hrun] at hall
  have hout := congrArg Prod.snd hall
  simp only at hout
  rw [← hout, List.append_assoc, ← hsends]
  rfl

theorem messages_indicated_after_noise :
    ∃ left : List Bytes, left.length ≤ 1 ∧ (∀ m ∈ left, m = [0x42]) ∧
      ((ComSlip.enable ⟨false, .idle, 0, 0, none⟩ (fun _ => 0) 3).receiveMessages
        [[0x41, slipEnd], 0x42 :: comSlipSendMessage [slipEnd, slipEsc], comSlipSendMessage [1, 2, 3, 4]]).2 =
          left ++ [[slipEnd, slipEsc], [1, 2, 3]] :=
  messages_indicated ⟨false, .idle, 0, 0, none⟩ (fun _ => 0) 3 [0x41, slipEnd, 0x42]
    [[slipEnd, slipEsc], [1, 2, 3, 4]]
    [[0x41, slipEnd], 0x42 :: comSlipSendMessage [slipEnd, slipEsc], comSlipSendMessage [1, 2, 3, 4]] rfl

/-- The cells of the buffer from `size` on. -/
def beyond (size : Nat) (s : ComSlip) : Option (Mem UInt8) := s.rxBuffer.map fun m i => m (size + i)

theorem Receives.beyond_storeRxByte (h : Receives size s) (b : UInt8) :
    (s.storeRxByte b).beyond size = s.beyond size := by
  unfold ComSlip.storeRxByte
  split
  · next hlt =>
    have hroom := UInt16.lt_iff_toNat_lt.mp hlt
    rw [h.room] at hroom
    obtain ⟨m, hm⟩ := Option.isSome_iff_exists.mp h.buffer
    simp only [beyond, hm, Option.map_some, Option.some_inj]
    exact funext fun i => Mem.copy_after (by rw [List.length_singleton]; omega)
  · rfl

theorem Receives.beyond_processRxByte (h : Receives size s) (b : UInt8) :
    (s.processRxByte b).1.beyond size = s.beyond size := by
  unfold ComSlip.processRxByte
  split
  · split <;> rfl
  · split
    · split <;> rfl
    · split
      · rfl
      · exact h.beyond_storeRxByte b
  · split
    · exact h.beyond_storeRxByte slipEnd
    · split
      · exact h.beyond_storeRxByte slipEsc
      · rfl
  · rfl

theorem Receives.beyond_receiveMessage (h : Receives size s) (received : Bytes) :
    (s.receiveMessage received).1.beyond size = s.beyond size := by
  induction received generalizing s with
  | nil => rfl
  | cons b bs ih =>
    rw [receiveMessage_cons]
    exact (ih (h.processRxByte b).1).trans (h.beyond_processRxByte b)

theorem Receives.beyond_receiveMessages (h : Receives size s) (receptions : List Bytes) :
    (s.receiveMessages receptions).1.beyond size = s.beyond size := by
  induction receptions generalizing s with
  | nil => rfl
  | cons received receptions ih =>
    rw [receiveMessages_cons]
    exact (ih (h.receiveMessage received).1).trans (h.beyond_receiveMessage received)

/-- Of any bytes, the messages that are indicated were sent, and what is behind the buffer is left. -/
structure ReceivedSafely (rxBuffer : Mem UInt8) (size : Nat) (bytes : Bytes) (r : ComSlip × List Bytes) : Prop where
  carried : ∃ ms, Slip.Carries slipChars bytes ms ∧ r.2 = ms.map (List.take size)
  inside : ∃ m, r.1.rxBuffer = some m ∧ ∀ i, size ≤ i → m i = rxBuffer i

/-- **Whatever comes, no message is made up, and nothing is written outside the buffer.** -/
theorem received_safely (s : ComSlip) (rxBuffer : Mem UInt8) (rxBufferSize : UInt16) (receptions : List Bytes) :
    ReceivedSafely rxBuffer rxBufferSize.toNat receptions.flatten
      ((s.enable rxBuffer rxBufferSize).receiveMessages receptions) := by
  have hreceives := enable_receives s rxBuffer rxBufferSize
  refine ⟨?_, ?_⟩
  · obtain ⟨ms, hcarries, hout⟩ := Slip.run_carries slipChars rxBufferSize.toNat receptions.flatten
    have hall := hreceives.receiveMessages receptions
    have hstart : (s.enable rxBuffer rxBufferSize).rx = .start := rfl
    rw [hstart] at hall
    rw [hall] at hout
    exact ⟨ms, hcarries, hout⟩
  · have hbeyond := hreceives.beyond_receiveMessages receptions
    obtain ⟨m, hm, hcells⟩ := Option.map_eq_some_iff.mp hbeyond
    refine ⟨m, hm, fun i hi => ?_⟩
    have hcell : m (rxBufferSize.toNat + (i - rxBufferSize.toNat)) =
        rxBuffer (rxBufferSize.toNat + (i - rxBufferSize.toNat)) := congrFun hcells (i - rxBufferSize.toNat)
    rwa [Nat.add_sub_cancel' hi] at hcell

end ComSlip

end Signpost
