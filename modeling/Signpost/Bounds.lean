/-
What a packet can make `get_message` copy.

The lengths of its copies come from unsigned subtractions on the fragment
offset and the received length. A `Frame` is what the loop reads of one
packet, and `Frame.Bounded` says its offset and length keep those subtractions
from wrapping and its payload as long as the copy. `taken` are the packets a
call copies from: the copies stay in their buffers exactly when these are all
bounded.
-/
import Signpost.GetMessage

namespace Signpost

open Lib

/-! ## The property -/

/-- Every copy reads inside the received payload and writes inside the `len`
bytes of the buffer, and no more than `len` bytes are reported. -/
structure MemorySafe (len : UInt32) (run : GetMessageRun) : Prop where
  reads : ∀ c ∈ run.copies, c.1.n ≤ c.2 - 8
  writes : ∀ c ∈ run.copies, ∀ i < c.1.n, c.1.dst + i < len.toNat
  count : ∀ r ∈ run.returned, r.lengthReceived.toNat ≤ len.toNat

theorem memorySafe_cons {len : UInt32} {c : Copy} {received : Nat} {copies : List (Copy × Nat)}
    {returned : Option Returned} :
    MemorySafe len ⟨(c, received) :: copies, returned⟩ ↔
      (c.n ≤ received - 8 ∧ ∀ i < c.n, c.dst + i < len.toNat) ∧ MemorySafe len ⟨copies, returned⟩ := by
  constructor
  · rintro ⟨hr, hw, hc⟩
    obtain ⟨hr0, hr⟩ := List.forall_mem_cons.mp hr
    obtain ⟨hw0, hw⟩ := List.forall_mem_cons.mp hw
    exact ⟨⟨hr0, hw0⟩, hr, hw, hc⟩
  · rintro ⟨⟨hr0, hw0⟩, hr, hw, hc⟩
    exact ⟨List.forall_mem_cons.mpr ⟨hr0, hr⟩, List.forall_mem_cons.mpr ⟨hw0, hw⟩, hc⟩

theorem memorySafe_returned {len : UInt32} {r : Returned} :
    MemorySafe len ⟨[], some r⟩ ↔ r.lengthReceived.toNat ≤ len.toNat := by
  constructor
  · rintro ⟨-, -, hc⟩
    exact hc r rfl
  · intro h
    refine ⟨by simp, by simp, fun r' hr' => ?_⟩
    cases hr'
    exact h

/-! ## Frames -/

/-- What the loop reads of a packet: the message it names, its offset and
more-fragments bit, and how many bytes were received. -/
structure Frame where
  src : UInt8
  sequenceNumber : UInt16
  offset : Nat
  more : Bool
  received : Nat
  deriving DecidableEq

/-- The frame in `packet_buf`. -/
def Frame.ofMem (m : Mem UInt8) (received : Nat) : Frame :=
  let header := (Packet.ofMem m).header
  { src := header.src
    sequenceNumber := header.sequenceNumber
    offset := (htons header.fragmentOffset).toNat
    more := header.flags.isFragment
    received }

/-- The arrivals as frames; one shorter than a header shows what the packet
before it left in `packet_buf`. -/
def frames : Mem UInt8 → List Bytes → List Frame
  | _, [] => []
  | packetBuf, b :: bs =>
    let packetBuf := packetBuf.copy 0 b
    .ofMem packetBuf b.length :: frames packetBuf bs

namespace Frame

variable (f : Frame)

def payload : Nat := f.received - 8

/-- The frame ends its message: it is the last, or the next one would not fit. -/
def Ends (len : Nat) : Prop := f.more = false ∨ len < f.offset + 247

instance (len : Nat) : Decidable (f.Ends len) := inferInstanceAs (Decidable (_ ∨ _))

/-- The offset is in the buffer and the payload as long as the copy. A last
packet with no whole header passes only where the wrapped lengths cancel. -/
def Bounded (len : Nat) : Prop :=
  f.offset ≤ len ∧
    if f.more then min 247 (len - f.offset) ≤ f.payload
    else 8 ≤ f.received ∨ (f.offset + f.received < 8 ∧ len % 65536 = f.offset)

instance (len : Nat) : Decidable (f.Bounded len) := inferInstanceAs (Decidable (_ ∧ ite _ _ _))

/-- What a bounded frame adds to the message. -/
def room (len : Nat) : Nat := min f.payload (len - f.offset)

theorem room_of_not_ends {f : Frame} {len : Nat} (hb : f.Bounded len) (hends : ¬ f.Ends len)
    (hr : f.received ≤ 255) : f.room len = 247 := by
  simp only [Ends, not_or, Bool.not_eq_false] at hends
  simp only [Bounded, hends.1, if_true] at hb
  simp only [payload, room] at *
  omega

end Frame

/-- The frames a call copies from, when it has copied `k` before: the first
one, then those of its source and sequence number, up to one that ends the
message. The count of bytes wraps, so after `2^32` frames any is first again. -/
def taken (len : Nat) : Nat → UInt8 → UInt16 → List Frame → List Frame
  | _, _, _, [] => []
  | k, src, seq, f :: fs =>
    if k % 2 ^ 32 ≠ 0 ∧ ¬ (seq = f.sequenceNumber ∧ src = f.src) then taken len k src seq fs
    else if f.Ends len then [f]
    else f :: taken len (k + 1) f.src f.sequenceNumber fs

/-- All these frames are bounded, and the count returned with the last, which
wraps, is no more than the buffer. -/
structure AllBounded (len k : Nat) (fs : List Frame) : Prop where
  each : ∀ f ∈ fs, f.Bounded len
  count : ∀ f ∈ fs.getLast?, f.Ends len → (247 * (k + (fs.length - 1)) + f.room len) % 2 ^ 32 ≤ len

theorem allBounded_end {len k : Nat} {f : Frame} (h : f.Ends len) :
    AllBounded len k [f] ↔ f.Bounded len ∧ (247 * k + f.room len) % 2 ^ 32 ≤ len := by
  constructor
  · rintro ⟨heach, hcount⟩
    exact ⟨heach f List.mem_cons_self, hcount f rfl h⟩
  · rintro ⟨hf, hc⟩
    refine ⟨fun g hg => ?_, fun g hg _ => ?_⟩
    · rwa [List.mem_singleton.mp hg]
    · cases hg
      exact hc

theorem allBounded_cons {len k : Nat} {f : Frame} {fs : List Frame} (h : ¬ f.Ends len) :
    AllBounded len k (f :: fs) ↔ f.Bounded len ∧ AllBounded len (k + 1) fs := by
  cases fs with
  | nil =>
    constructor
    · rintro ⟨heach, -⟩
      exact ⟨heach f List.mem_cons_self, ⟨by simp, by simp⟩⟩
    · rintro ⟨hf, -⟩
      refine ⟨fun g hg => ?_, fun g hg hends => ?_⟩
      · rwa [List.mem_singleton.mp hg]
      · cases hg
        exact absurd hends h
  | cons g gs =>
    have hk : k + ((f :: g :: gs).length - 1) = k + 1 + ((g :: gs).length - 1) := by
      simp only [List.length_cons]; omega
    constructor
    · rintro ⟨heach, hcount⟩
      rw [hk] at hcount
      exact ⟨heach f List.mem_cons_self, ⟨fun x hx => heach x (List.mem_cons_of_mem f hx), hcount⟩⟩
    · rintro ⟨hf, heach, hcount⟩
      refine ⟨List.forall_mem_cons.mpr ⟨hf, heach⟩, ?_⟩
      rw [hk]
      exact hcount

/-! ## One copy -/

/-- The copy a turn makes is in bounds exactly for a bounded frame, and then
adds what the frame has room for. -/
theorem copyLength_bounded (len : UInt32) (fragmentOffset : UInt16) (more : Bool) (newLen src : UInt8)
    (seq : UInt16) :
    let n := copyLength len fragmentOffset more newLen
    let f : Frame := ⟨src, seq, fragmentOffset.toNat, more, newLen.toNat⟩
    ((n.1.toNat ≤ newLen.toNat - 8 ∧ ∀ i < n.1.toNat, fragmentOffset.toNat + i < len.toNat) ↔
        f.Bounded len.toNat) ∧
      (f.Bounded len.toNat → n.1.toNat = f.room len.toNat ∧ n.2 = decide (f.Ends len.toNat)) := by
  obtain ⟨h1, h2⟩ := copyLength_eq len fragmentOffset more newLen
  have hlen := len.toNat_lt
  have hoff := fragmentOffset.toNat_lt
  have hnew := newLen.toNat_lt
  have hwrites : ∀ n, (∀ i < n, fragmentOffset.toNat + i < len.toNat) ↔
      n = 0 ∨ fragmentOffset.toNat + n ≤ len.toNat := by
    intro n
    constructor
    · intro h
      rcases Nat.eq_zero_or_pos n with h0 | h0
      · exact .inl h0
      · have := h (n - 1) (by omega)
        omega
    · intro h i hi
      omega
  simp only [hwrites, Frame.Bounded, Frame.room, Frame.payload, Frame.Ends]
  rw [h1, h2]
  cases more with
  | true =>
    simp only [payloadLength, if_true, Bool.not_true, Bool.false_or, reduceCtorEq, false_or,
      decide_eq_decide]
    split <;> omega
  | false =>
    simp only [payloadLength, Bool.false_eq_true, if_false, Bool.not_false, Bool.true_or, true_or,
      decide_true, and_true]
    split <;> omega

/-! ## A whole call -/

/-- The locals after `k` whole frames of a message were taken. -/
structure Counting (k : Nat) (src : UInt8) (seq : UInt16) (loc : GetMessage) : Prop where
  received : loc.lengthReceived.toNat = 247 * k % 2 ^ 32
  lock : k % 2 ^ 32 ≠ 0 → loc.messageSequenceNumber = seq ∧ loc.messageSourceAddress = src

section
variable {len : UInt32} {k : Nat} {src : UInt8} {seq : UInt16} {loc : GetMessage} {out : RecvOut}

theorem Counting.begun (h : Counting k src seq loc) : loc.lengthReceived ≠ 0 ↔ k % 2 ^ 32 ≠ 0 := by
  rw [Ne, ← UInt32.toNat_inj, h.received, UInt32.toNat_zero]
  omega

theorem Counting.drops (h : Counting k src seq loc) (m : Mem UInt8) (received : Nat) :
    (loc.lengthReceived ≠ 0 ∧
      ¬ (loc.messageSequenceNumber = (Packet.ofMem m).header.sequenceNumber ∧
        loc.messageSourceAddress = (Packet.ofMem m).header.src)) ↔
      k % 2 ^ 32 ≠ 0 ∧ ¬ (seq = (Frame.ofMem m received).sequenceNumber ∧
        src = (Frame.ofMem m received).src) := by
  rw [h.begun]
  refine and_congr_right fun hk => ?_
  rw [(h.lock hk).1, (h.lock hk).2]
  rfl

theorem Counting.turn (h : Counting k src seq loc) (out : RecvOut) {m : Mem UInt8} {received : Nat}
    (hr : received ≤ 255)
    (htaken : ¬ (k % 2 ^ 32 ≠ 0 ∧ ¬ (seq = (Frame.ofMem m received).sequenceNumber ∧
      src = (Frame.ofMem m received).src)))
    {t : Turn} (ht : getMessageTurn len (.ofMem m) (UInt8.ofNat received) loc out = t) :
    let f := Frame.ofMem m received
    ∃ c, t.copy = some c ∧
      ((c.n ≤ received - 8 ∧ ∀ i < c.n, c.dst + i < len.toNat) ↔ f.Bounded len.toNat) ∧
      (f.Bounded len.toNat → t.done = decide (f.Ends len.toNat) ∧
        t.loc.lengthReceived.toNat = (247 * k + f.room len.toNat) % 2 ^ 32 ∧
        (¬ f.Ends len.toNat → Counting (k + 1) f.src f.sequenceNumber t.loc)) := by
  intro f
  have hreceived : (UInt8.ofNat received).toNat = received :=
    UInt8.toNat_ofNat_of_lt' (by simp [UInt8.size]; omega)
  obtain ⟨hsafe, hbounded⟩ := copyLength_bounded len (htons (Packet.ofMem m).header.fragmentOffset)
    (Packet.ofMem m).header.flags.isFragment (UInt8.ofNat received) f.src f.sequenceNumber
  rw [hreceived] at hsafe hbounded
  simp only [getMessageTurn, mt (h.drops m received).mp htaken, if_false] at ht
  generalize copyLength len _ _ _ = n at hsafe hbounded ht
  subst ht
  refine ⟨_, rfl, hsafe, fun hb => ?_⟩
  obtain ⟨hn, hdone⟩ := hbounded hb
  have hcount : (loc.lengthReceived + n.1).toNat = (247 * k + f.room len.toNat) % 2 ^ 32 := by
    rw [UInt32.toNat_add, h.received, hn]
    exact Nat.mod_add_mod ..
  refine ⟨hdone, hcount, fun hends => ⟨?_, fun hk => ?_⟩⟩
  · rw [hcount, Frame.room_of_not_ends hb hends hr, Nat.mul_succ]
  · by_cases hz : loc.lengthReceived = 0
    · simp only [hz, decide_true, if_true]
      exact ⟨rfl, rfl⟩
    · have hbegun := h.begun.mp hz
      obtain ⟨hseq, hsrc⟩ := h.lock hbegun
      simp only [hz, decide_false, Bool.false_eq_true, if_false, hseq, hsrc]
      exact Decidable.not_not.mp fun hne => htaken ⟨hbegun, hne⟩

theorem getMessageLoop_copy {pb : Mem UInt8} {b : Bytes} {bs : List Bytes} {t : Turn} {c : Copy}
    (ht : getMessageTurn len (.ofMem (pb.copy 0 b)) (UInt8.ofNat b.length) loc out = t)
    (hc : t.copy = some c) :
    getMessageLoop len pb loc out (b :: bs) =
      if t.done then ⟨[(c, b.length)], some ⟨t.loc.lengthReceived, t.out, pb.copy 0 b, bs⟩⟩
      else
        ⟨(c, b.length) :: (getMessageLoop len (pb.copy 0 b) t.loc t.out bs).copies,
          (getMessageLoop len (pb.copy 0 b) t.loc t.out bs).returned⟩ := by
  subst ht
  simp only [getMessageLoop, hc, Option.map_some, Option.toList_some, List.singleton_append]

theorem getMessageLoop_memorySafe {arrivals : List Bytes} (hrecv : ∀ b ∈ arrivals, b.length ≤ 255) :
    ∀ {k : Nat} {src : UInt8} {seq : UInt16} {loc : GetMessage} {out : RecvOut} {pb : Mem UInt8},
      Counting k src seq loc →
      (MemorySafe len (getMessageLoop len pb loc out arrivals) ↔
        AllBounded len.toNat k (taken len.toNat k src seq (frames pb arrivals))) := by
  induction arrivals with
  | nil =>
    intro k src seq loc out pb _
    simp only [getMessageLoop, frames, taken]
    exact ⟨fun _ => ⟨by simp, by simp⟩, fun _ => ⟨by simp, by simp, by simp⟩⟩
  | cons b bs ih =>
    intro k src seq loc out pb h
    obtain ⟨hb, hbs⟩ := List.forall_mem_cons.mp hrecv
    simp only [frames, taken]
    by_cases hdrop : k % 2 ^ 32 ≠ 0 ∧ ¬ (seq = (Frame.ofMem (pb.copy 0 b) b.length).sequenceNumber ∧
      src = (Frame.ofMem (pb.copy 0 b) b.length).src)
    · rw [if_pos hdrop, getMessageLoop, getMessageTurn, if_pos ((h.drops _ _).mpr hdrop)]
      exact ih hbs h
    · obtain ⟨c, hc, hsafe, hbounded⟩ := h.turn out hb hdrop rfl
      rw [if_neg hdrop, getMessageLoop_copy rfl hc]
      by_cases hf : (Frame.ofMem (pb.copy 0 b) b.length).Bounded len.toNat
      · obtain ⟨hdone, hcount, hnext⟩ := hbounded hf
        by_cases hends : (Frame.ofMem (pb.copy 0 b) b.length).Ends len.toNat
        · rw [if_pos hends, if_pos (hdone.trans (decide_eq_true hends)), allBounded_end hends, ← hcount]
          rw [memorySafe_cons, memorySafe_returned, hsafe]
        · rw [if_neg hends, if_neg (by rw [hdone, decide_eq_false hends]; exact Bool.false_ne_true),
            allBounded_cons hends, memorySafe_cons, hsafe, ih hbs (hnext hends)]
      · refine iff_of_false (fun hm => ?_) (fun ha => ?_)
        · split at hm
          · exact hf (hsafe.mp (memorySafe_cons.mp hm).1)
          · exact hf (hsafe.mp (memorySafe_cons.mp hm).1)
        · split at ha
          · exact hf (ha.each _ List.mem_cons_self)
          · exact hf (ha.each _ List.mem_cons_self)

end

/-- **When reassembly is memory safe.** For all packets of at most 255 bytes,
the copies of `get_message` stay in the received payload and in the buffer, and
its count is no more than the buffer, exactly when the frames it takes are
bounded. -/
theorem getMessage_memorySafe_iff {len : UInt32} {packetBuf : Mem UInt8} {stack : GetMessage}
    {out : RecvOut} {arrivals : List Bytes} (hrecv : ∀ b ∈ arrivals, b.length ≤ 255) :
    MemorySafe len (getMessage len packetBuf stack out arrivals) ↔
      AllBounded len.toNat 0 (taken len.toNat 0 0 0 (frames packetBuf arrivals)) :=
  getMessageLoop_memorySafe hrecv ⟨rfl, fun h => absurd rfl h⟩

/-- A last packet that just fits a buffer of three bytes. -/
theorem getMessage_memorySafe_iff_three : MemorySafe 3 (getMessage 3 (fun _ => 0) ⟨0, 0, 0⟩
    ⟨fun _ => 0, false, 0⟩ [[16, 2, 0, 1, 0, 9, 0, 2, 170]]) :=
  (getMessage_memorySafe_iff (by decide)).mpr ⟨by decide, by decide⟩

/-- The same packet makes a call with a buffer of one byte write 65535 bytes,
from index 2 on. -/
theorem getMessage_past_buffer : ¬ MemorySafe 1 (getMessage 1 (fun _ => 0) ⟨0, 0, 0⟩
    ⟨fun _ => 0, false, 0⟩ [[16, 2, 0, 1, 0, 9, 0, 2, 170]]) := by
  intro h
  have hcopies : (⟨2, 65535⟩, 9) ∈ (getMessage 1 (fun _ => 0) ⟨0, 0, 0⟩ ⟨fun _ => 0, false, 0⟩
      [[16, 2, 0, 1, 0, 9, 0, 2, 170]]).copies := by decide
  exact absurd (h.writes _ hcopies 0 (by decide)) (by decide)

end Signpost
