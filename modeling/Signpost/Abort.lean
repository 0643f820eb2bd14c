/-
A send that stops after some of its fragments, and what it does to the
messages sent after it.

`get_message` has no timeout: once it has taken a packet that does not end a
message it waits for the next of that message and drops all others.
`Waiting len m i s` is the receiver that has the first `i` fragments of `m`;
with `i = 0` it has nothing, and any message can begin.
-/
import Mathlib.Data.List.Forall2
import Signpost.Bus

namespace Signpost

open Lib

/-- The receiver listens: a packet arrives while a call waits, and every call
has a buffer of `len` bytes. -/
def Receiver.Listens (len : UInt32) (s : Receiver) : Receiver.Event → Prop
  | .arrive _ => s.running.isSome = true
  | .call len' _ _ => len' = len

instance (len : UInt32) (s : Receiver) : ∀ e, Decidable (s.Listens len e)
  | .arrive _ => inferInstanceAs (Decidable (_ = _))
  | .call .. => inferInstanceAs (Decidable (_ = _))

/-- One step of a receiver that always listens. -/
def Listening (len : UInt32) (s : Receiver) (e : Receiver.Event) (s' : Receiver) (rs : List Result) :
    Prop :=
  s.step e = some (s', rs) ∧ s.Listens len e

/-- The receiver has the first `i` fragments of `m` and waits for the rest; with
none of them, it may be between two calls. -/
structure Waiting (len : UInt32) (m : Message) (i : Nat) (s : Receiver) : Prop where
  newpkt : s.newpkt.new = false
  running : ∀ c ∈ s.running, c.len = len ∧ Assembling m len i c.loc c.out
  locked : 0 < i → s.running.isSome = true

section
variable {len : UInt32} {m : Message} {i : Nat} {s s' : Receiver} {e : Receiver.Event}
  {es : List Receiver.Event} {rs : List Result} {b : Bytes}

theorem Waiting.begin (h : Waiting len m 0 s) (m' : Message) : Waiting len m' 0 s where
  newpkt := h.newpkt
  running := fun c hc => ⟨(h.running c hc).1, .zero ((h.running c hc).2.lengthReceived_eq_zero.mpr rfl)⟩
  locked := fun h => absurd h (Nat.lt_irrefl 0)

theorem Receiver.Idle.waiting (h : s.Idle) (len : UInt32) (m : Message) : Waiting len m 0 s where
  newpkt := h.2
  running := fun c hc => by rw [h.1] at hc; cases hc
  locked := fun h => absurd h (Nat.lt_irrefl 0)

/-! ## One step -/

theorem Waiting.call (h : Waiting len m i s) {len' : UInt32} {stack : GetMessage} {out : RecvOut}
    (hstep : Listening len s (.call len' stack out) s' rs) : i = 0 ∧ rs = [] ∧ Waiting len m 0 s' := by
  obtain ⟨hs, rfl⟩ := hstep
  simp only [Receiver.step] at hs
  split at hs
  · next hrun =>
    simp only [Receiver.wake, h.newpkt, Bool.false_eq_true, if_false, Option.some.injEq] at hs
    cases hs
    refine ⟨?_, rfl, h.newpkt, ?_, fun h => absurd h (Nat.lt_irrefl 0)⟩
    · rcases Nat.eq_zero_or_pos i with hz | hpos
      · exact hz
      · have := h.locked hpos
        rw [hrun] at this
        cases this
    · intro c hc
      cases hc
      exact ⟨rfl, .zero rfl⟩
  · cases hs

theorem Waiting.arrive (h : Waiting len m i s) (hfit : m.Fits) (hi : i < m.count)
    (hstep : Listening len s (.arrive (m.fragment i)) s' rs) :
    (m.count ≤ i + 1 ∨ len.toNat < 247 * (i + 1) →
      ∃ r, rs = [r] ∧ Complete m len r.lengthReceived r.out ∧ Waiting len m 0 s') ∧
    (¬ (m.count ≤ i + 1 ∨ len.toNat < 247 * (i + 1)) → rs = [] ∧ Waiting len m (i + 1) s') := by
  obtain ⟨hs, hrun⟩ := hstep
  obtain ⟨c, hc⟩ := Option.isSome_iff_exists.mp hrun
  obtain ⟨rfl, ha⟩ := h.running c hc
  obtain ⟨hdone, hcomplete, hnext, -⟩ := ha.turn hfit hi s.packetBuf rfl
  simp only [Receiver.step, Receiver.wake, Receiver.arrive, hc, if_true, Option.some.injEq] at hs
  split at hs
  · next hd =>
    cases hs
    refine ⟨fun _ => ⟨_, rfl, hcomplete hd, rfl, by simp, fun h => absurd h (Nat.lt_irrefl 0)⟩,
      fun hn => ?_⟩
    exact absurd (of_decide_eq_true (hdone.symm.trans hd)) hn
  · next hd =>
    cases hs
    rw [Bool.not_eq_true] at hd
    refine ⟨fun hy => absurd hy (of_decide_eq_false (hdone.symm.trans hd)),
      fun _ => ⟨rfl, rfl, ?_, by simp⟩⟩
    intro c' hc'
    cases hc'
    exact ⟨rfl, hnext hd⟩

/-- A packet of another message changes nothing but `packet_buf`. -/
theorem Waiting.foreign (h : Waiting len m i s) (hpos : 0 < i) (hb : Foreign m.key b)
    (hstep : Listening len s (.arrive b) s' rs) : rs = [] ∧ Waiting len m i s' := by
  obtain ⟨c, hc⟩ := Option.isSome_iff_exists.mp hstep.2
  obtain ⟨rfl, ha⟩ := h.running c hc
  have hs := Option.some.inj hstep.1
  rw [ha.wake_foreign hpos hb hc] at hs
  cases hs
  refine ⟨rfl, rfl, fun c' hc' => ?_, fun _ => hstep.2⟩
  obtain rfl : c = c' := Option.some.inj (hc.symm.trans hc')
  exact ⟨rfl, ha⟩

/-! ## Runs -/

/-- A receiver locked on a message stays so whatever else arrives, and returns
nothing; so does one that sees no arrival at all. -/
theorem Waiting.dropped (hrun : Run (Listening len) s es s' rs) (h : Waiting len m i s)
    (hforeign : ∀ b ∈ Receiver.arrivals es, 0 < i ∧ Foreign m.key b) : rs = [] ∧ Waiting len m i s' := by
  induction hrun with
  | nil => exact ⟨rfl, h⟩
  | @cons s e s' o es s'' os hs _ ih =>
    cases e with
    | arrive b =>
      obtain ⟨⟨hpos, hb⟩, hforeign⟩ := List.forall_mem_cons.mp hforeign
      obtain ⟨rfl, h'⟩ := h.foreign hpos hb hs
      exact ih h' hforeign
    | call len' stack out =>
      obtain ⟨rfl, rfl, h'⟩ := h.call hs
      exact ih h' hforeign

/-- The fragments of `m` up to the `k`-th arrive, all but the last inside the
buffer: they end in a result, or in a receiver locked on `m`. -/
theorem Waiting.fragments (hrun : Run (Listening len) s es s' rs) (hfit : m.Fits) {k : Nat}
    (hk : k ≤ m.count) (hroom : 247 * (k - 1) ≤ len.toNat) :
    ∀ {i}, i < k → Waiting len m i s → Receiver.arrivals es = (m.fragments.take k).drop i →
    (k = m.count ∨ len.toNat < 247 * k →
      ∃ r, rs = [r] ∧ Complete m len r.lengthReceived r.out ∧ Waiting len m 0 s') ∧
    (¬ (k = m.count ∨ len.toNat < 247 * k) → rs = [] ∧ Waiting len m k s') := by
  induction hrun with
  | nil =>
    intro i hi _ harr
    have := congrArg List.length harr
    simp only [Receiver.arrivals_nil, List.length_nil, List.length_drop, List.length_take,
      Message.length_fragments] at this
    omega
  | @cons s e s' o es s'' os hs hrest ih =>
    intro i hi h harr
    cases e with
    | call len' stack out =>
      obtain ⟨rfl, rfl, h'⟩ := h.call hs
      exact ih hi h' harr
    | arrive b =>
      have hlt : i < (m.fragments.take k).length := by simp; omega
      rw [Receiver.arrivals_arrive, List.drop_eq_getElem_cons hlt] at harr
      obtain ⟨rfl, htail⟩ := List.cons.inj harr
      have hb : (m.fragments.take k)[i] = m.fragment i := by simp [Message.fragments]
      rw [hb] at hs
      obtain ⟨hdone, hmore⟩ := h.arrive hfit (by omega) hs
      by_cases hik : i + 1 = k
      · subst hik
        have hnone : Receiver.arrivals es = [] :=
          htail.trans (List.drop_eq_nil_of_le (List.length_take_le ..))
        have hquiet : ∀ {j}, ∀ b ∈ Receiver.arrivals es, 0 < j ∧ Foreign m.key b := by simp [hnone]
        constructor
        · intro hend
          obtain ⟨r, rfl, hc, h'⟩ := hdone (by omega)
          obtain ⟨rfl, h''⟩ := h'.dropped hrest hquiet
          exact ⟨r, rfl, hc, h''⟩
        · intro hend
          obtain ⟨rfl, h'⟩ := hmore (by omega)
          exact h'.dropped hrest hquiet
      · obtain ⟨rfl, h'⟩ := hmore (by omega)
        exact ih (by omega) h' htail

theorem Waiting.messages {later : List CompleteSend}
    (hlater : ∀ x ∈ later, x.message.Fits ∧ 1 ≤ x.len.toNat ∧ x.len ≤ len) :
    ∀ {s s' es rs}, Run (Listening len) s es s' rs → Waiting len m 0 s →
      Receiver.arrivals es = later.flatMap CompleteSend.packets →
      List.Forall₂ (fun x r => Delivers x.message r) later rs := by
  induction later with
  | nil =>
    intro s s' es rs hrun h harr
    obtain ⟨rfl, -⟩ := h.dropped hrun (by simp [show Receiver.arrivals es = [] from harr])
    exact .nil
  | cons x later ih =>
    intro s s' es rs hrun h harr
    obtain ⟨⟨hfit, hone, hle⟩, hlater⟩ := List.forall_mem_cons.mp hlater
    have hlength := x.length_message
    have hle := UInt32.le_iff_toNat_le.mp hle
    have hcount : 0 < x.message.count := Message.lt_count.mpr (by omega)
    have hlast : ∀ {i}, i < x.message.count ↔ 247 * i < x.message.data.length := Message.lt_count
    rw [List.flatMap_cons, Receiver.arrivals, List.filterMap_eq_append_iff] at harr
    obtain ⟨es₁, es₂, rfl, h₁, h₂⟩ := harr
    obtain ⟨t, rs₁, rs₂, rfl, hrun₁, hrun₂⟩ := hrun.of_append
    have hroom : 247 * (x.message.count - 1) ≤ len.toNat := by
      have := hlast.mp (show x.message.count - 1 < x.message.count by omega)
      omega
    obtain ⟨r, rfl, hc, h'⟩ := (Waiting.fragments hrun₁ hfit (Nat.le_refl _) hroom hcount (h.begin _) (by
      rw [List.drop_zero, List.take_of_length_le (by simp), ← CompleteSend.packets_eq hfit]
      exact h₁)).1 (.inl rfl)
    exact .cons (hc.delivers (by omega)) (ih hlater hrun₂ (h'.begin _) h₂)

/-- **What an aborted send leaves.** A send of `m` stops after `k` fragments,
all but the last inside the receiver's buffer, and complete messages with
other keys follow, each in one piece. If the `k`-th fragment was the last of
`m`, or overran the buffer, each of them is delivered in full; otherwise the
receiver stays locked on `m` and returns none of them. -/
theorem results_after_abort {len : UInt32} {write : MasterWrite} {d : Device} {dest : UInt8}
    {encrypted : Bool} {data : Mem UInt8} {size : UInt32} {m : Message}
    (hm : Message.ofSend d encrypted data size = m) (hfit : m.Fits) {k : Nat}
    (hk : 1 ≤ k ∧ k ≤ m.count) (hok : ∀ j < k, 0 ≤ write j dest (m.fragment j))
    (hstop : k < m.count → write k dest (m.fragment k) < 0) (hroom : 247 * (k - 1) ≤ len.toNat)
    {later : List CompleteSend} (hlater : ∀ x ∈ later,
    x.message.Fits ∧ 1 ≤ x.len.toNat ∧ x.len ≤ len ∧ x.message.key ≠ m.key)
    {s s' : Receiver} {es : List Receiver.Event} {rs : List Result} (hidle : s.Idle)
    (harr : Receiver.arrivals es =
      (signbusIoSend write d dest encrypted data size).packets ++ later.flatMap CompleteSend.packets)
    (hrun : Run (Listening len) s es s' rs) :
    (k = m.count ∨ len.toNat < 247 * k →
      ∃ r rs', rs = r :: rs' ∧ List.Forall₂ (fun x r => Delivers x.message r) later rs') ∧
    (¬ (k = m.count ∨ len.toNat < 247 * k) → rs = [] ∧ Waiting len m k s') := by
  subst hm
  rw [(signbusIoSend_packets write dest hfit hk.2 hok hstop).1, Receiver.arrivals,
    List.filterMap_eq_append_iff] at harr
  obtain ⟨es₁, es₂, rfl, h₁, h₂⟩ := harr
  obtain ⟨t, rs₁, rs₂, rfl, hrun₁, hrun₂⟩ := hrun.of_append
  obtain ⟨hended, hlocked⟩ :=
    Waiting.fragments hrun₁ hfit hk.2 hroom (Nat.lt_of_lt_of_le Nat.zero_lt_one hk.1)
    (hidle.waiting len _) (by rw [List.drop_zero]; exact h₁)
  constructor
  · intro hend
    obtain ⟨r, rfl, -, h'⟩ := hended hend
    exact ⟨r, rs₂, rfl, h'.messages (fun x hx => ⟨(hlater x hx).1, (hlater x hx).2.1, (hlater x hx).2.2.1⟩)
      hrun₂ h₂⟩
  · intro hend
    obtain ⟨rfl, h'⟩ := hlocked hend
    refine h'.dropped hrun₂ fun b hb => ⟨hk.1, ?_⟩
    rw [Receiver.arrivals, h₂, List.mem_flatMap] at hb
    obtain ⟨x, hx, hb⟩ := hb
    rw [CompleteSend.packets_eq (hlater x hx).1, Message.fragments, List.mem_map] at hb
    obtain ⟨i, -, rfl⟩ := hb
    exact ⟨_, Message.packetKey_fragment i, (hlater x hx).2.2.2⟩

end

/-- A port that refuses the second packet of a send. -/
def refuseSecond : MasterWrite := fun k _ _ => if k = 0 then 0 else -1

/-- What such a port puts on the bus of two packets. -/
def abortedSend (x : CompleteSend) : List Bytes :=
  (signbusIoSend refuseSecond x.device 9 x.encrypted x.data x.len).packets

theorem twoPackets_count (src : UInt8) : (twoPackets src).message.count = 2 := by
  have hlength : (twoPackets src).message.data.length = 248 := (twoPackets src).length_message
  rw [Message.count, hlength]

theorem refuseSecond_first {j : Nat} (hj : j < 1) (dest : UInt8) (bytes : Bytes) :
    0 ≤ refuseSecond j dest bytes := by
  obtain rfl : j = 0 := by omega
  exact Int.le_refl 0

theorem abortedSend_twoPackets : abortedSend (twoPackets 1) = [(twoPackets 1).message.fragment 0] := by
  have hcount := twoPackets_count 1
  have hp := (signbusIoSend_packets refuseSecond 9 (k := 1)
    (twoPackets_fits _ List.mem_cons_self) (by change 1 ≤ (twoPackets 1).message.count; omega)
    (fun j hj => refuseSecond_first hj 9 _) (fun _ => by decide)).1
  change abortedSend (twoPackets 1) = (twoPackets 1).message.fragments.take 1 at hp
  rw [hp, Message.fragments, hcount]
  rfl

/-- The first fragment of two overruns a buffer of 200 bytes, and the message
sent next is delivered. -/
theorem results_after_abort_overrun : ∃ s' rs, Run.exec
      (fun s e => if s.Listens 200 e then s.step e else none) Receiver.init
      [.recv 200, .arrive ((twoPackets 1).message.fragment 0), .recv 200,
       .arrive ((sendOf 2 100).message.fragment 0)] = some (s', rs) ∧
    ∃ r rs', rs = r :: rs' ∧ List.Forall₂ (fun x r => Delivers x.message r) [sendOf 2 100] rs' := by
  have hsome : (Run.exec (fun s e => if Receiver.Listens 200 s e then s.step e else none) Receiver.init
      [.recv 200, .arrive ((twoPackets 1).message.fragment 0), .recv 200,
       .arrive ((sendOf 2 100).message.fragment 0)]).isSome = true := by decide +kernel
  obtain ⟨⟨s', rs⟩, he⟩ := Option.isSome_iff_exists.mp hsome
  have hlength : (sendOf 2 100).message.data.length = 100 := (sendOf 2 100).length_message
  have hfit : (sendOf 2 100).message.Fits := by rw [Message.Fits, hlength]; decide
  have hlater : (sendOf 2 100).packets = [(sendOf 2 100).message.fragment 0] := by
    rw [CompleteSend.packets_eq hfit, Message.fragments, Message.count, hlength]
    rfl
  refine ⟨s', rs, he, (results_after_abort (m := (twoPackets 1).message) (k := 1) rfl
    (twoPackets_fits _ List.mem_cons_self) (by rw [twoPackets_count]; decide) (fun j hj => refuseSecond_first hj 9 _)
    (fun _ => by decide) (by decide)
    ?_ ⟨rfl, rfl⟩ ?_ (Run.of_exec_guard he)).1 (.inr (by decide))⟩
  · rw [List.forall_mem_singleton]
    exact ⟨hfit, by decide, by decide, by decide⟩
  · rw [List.flatMap_singleton, hlater]
    change _ = abortedSend (twoPackets 1) ++ _
    rw [abortedSend_twoPackets]
    rfl

/-- After one fragment of two, a receiver with room for both returns nothing
for the complete message sent next. -/
theorem abort_blocks_later : ∃ s', Run.exec
      (fun s e => if s.Listens 300 e then s.step e else none) Receiver.init
      (.recv 300 :: (abortedSend (twoPackets 1) ++ (twoPackets 2).packets).map .arrive) =
      some (s', []) := by
  rw [abortedSend_twoPackets, twoPackets_packets]
  have hnone : (Run.exec (fun s e => if Receiver.Listens 300 s e then s.step e else none) Receiver.init
      (.recv 300 :: ([(twoPackets 1).message.fragment 0] ++
        [(twoPackets 2).message.fragment 0, (twoPackets 2).message.fragment 1]).map .arrive)).map
          (fun p => p.2.length) = some 0 := by decide +kernel
  obtain ⟨⟨s', rs⟩, he, hl⟩ := Option.map_eq_some_iff.mp hnone
  obtain rfl := List.eq_nil_of_length_eq_zero hl
  exact ⟨s', he⟩

end Signpost
