/-
The cellular batch: when the loop that fills it stays in its buffer and takes as
many messages as fit.

The loop tests the room for the length of the message at the head of the queue,
whichever message it is about to add.

The loop is a fold over the queue, and its result a count of messages and what
they fill. It is the longest that fits exactly if the test comes out right at
one place, which the condition names.
-/
import Mathlib.Algebra.Ring.Nat
import Mathlib.Data.Nat.Find
import Signpost.RadioHistory

namespace Signpost

open Lib

/-- The length of a batch of these, with its header. -/
def batchLength (es : List Entry) : Nat := 7 + (es.map fun e => 2 + e.bytes.length).sum

/-- How many messages from the front fit in `cell_buffer`. -/
def longestFit (es : List Entry) : Nat :=
  Nat.findGreatest (fun k => batchLength (es.take k) ≤ cellPostSize) es.length

section
variable {es : List Entry} {j k : Nat}

theorem length_framed (e : Entry) : e.framed.length = 2 + e.bytes.length := by
  simp only [Entry.framed, batchEntry, List.length_cons]
  omega

theorem length_batch {header : Bytes} (hlen : header.length = 7) (es : List Entry) :
    (header ++ es.flatMap Entry.framed).length = batchLength es := by
  rw [List.length_append, hlen, batchLength, List.length_flatMap, List.map_congr_left fun e _ => length_framed e]

theorem batchLength_take_succ (hj : j < es.length) :
    batchLength (es.take (j + 1)) = batchLength (es.take j) + (2 + es[j].bytes.length) := by
  rw [List.take_succ_eq_append_getElem hj, batchLength, batchLength, List.map_append, List.sum_append]
  simp only [List.map_cons, List.map_nil, List.sum_cons, List.sum_nil]
  omega

theorem batchLength_take_lt (hjk : j < k) (hk : k ≤ es.length) :
    batchLength (es.take j) < batchLength (es.take k) := by
  induction k, hjk using Nat.le_induction with
  | base =>
    rw [batchLength_take_succ hk]
    omega
  | succ k _ ih =>
    have hlt := ih (by omega)
    rw [batchLength_take_succ hk]
    omega

theorem batchLength_take_le (hjk : j ≤ k) (hk : k ≤ es.length) :
    batchLength (es.take j) ≤ batchLength (es.take k) := by
  rcases Nat.lt_or_eq_of_le hjk with hlt | rfl
  · exact Nat.le_of_lt (batchLength_take_lt hlt hk)
  · exact Nat.le_refl _

theorem longestFit_le (es : List Entry) : longestFit es ≤ es.length := Nat.findGreatest_le _

theorem longestFit_fits (es : List Entry) : batchLength (es.take (longestFit es)) ≤ cellPostSize :=
  Nat.findGreatest_spec (P := fun k => batchLength (es.take k) ≤ cellPostSize) (Nat.zero_le es.length)
    (by simp [batchLength, cellPostSize])

theorem longestFit_pos (hne : es ≠ []) (hbyte : ∀ e ∈ es, e.bytes.length < 256) : 0 < longestFit es := by
  obtain ⟨e, rest, rfl⟩ := List.exists_cons_of_ne_nil hne
  have he := hbyte e List.mem_cons_self
  refine Nat.le_findGreatest (Nat.succ_le_of_lt (Nat.succ_pos rest.length)) ?_
  simp only [batchLength, List.take_succ_cons, List.take_zero, List.map_cons, List.map_nil, List.sum_cons,
    List.sum_nil, cellPostSize]
  omega

end

namespace Queue

variable {bufferSize : Nat} {q : Queue bufferSize} {header : Bytes} {counts : PacketCounts}

theorem hasRoom_iff {used : Nat} {e : Entry} (h : q.entries.head? = some e) :
    q.HasRoom used ↔ used + 2 + e.bytes.length < cellPostSize := by
  have hne : q.queueHead ≠ q.queueTail := fun heq => by simp [entries_eq_nil.mpr heq] at h
  rw [entries_cons hne] at h
  rw [HasRoom, ← Option.some.inj h, length_slot]

/-- The test for the message at the head comes out right at the longest batch that
fits: there is room before its last message, and none after it if others are left. -/
def TestedRight (q : Queue bufferSize) : Prop :=
  ∃ e ∈ q.entries.head?, let k := longestFit q.entries
    batchLength (q.entries.take (k - 1)) + 2 + e.bytes.length < cellPostSize ∧
      (k = q.entries.length ∨ cellPostSize ≤ batchLength (q.entries.take k) + 2 + e.bytes.length)

theorem length_fill (q : Queue bufferSize) (fuel : Nat) (b : Batch) :
    b.cellBuffer.length ≤ (q.fill fuel b).cellBuffer.length := by
  induction fuel generalizing b with
  | zero => exact Nat.le_refl _
  | succ fuel ih =>
    have hput : b.cellBuffer.length ≤ (q.put b).cellBuffer.length := by
      simp [put]
    unfold fill
    split
    · split
      · exact hput
      · exact Nat.le_trans hput (ih (q.put b))
    · exact Nat.le_refl _

theorem fill_empty (hlen : header.length = 7) :
    header.length < (q.fill queueSize ⟨header, q.queueHead, counts, 0⟩).cellBuffer.length := by
  have hsmall := (q.dataLength q.queueHead).toNat_lt
  have hput : header.length < (q.put ⟨header, q.queueHead, counts, 0⟩).cellBuffer.length := by
    simp [put, batchEntry]
  unfold queueSize fill
  rw [if_pos (by simp only [hlen, cellPostSize]; omega)]
  split
  · exact hput
  · exact Nat.lt_of_lt_of_le hput (q.length_fill _ _)

/-- Where the test has room before a number of messages, and none after it if others
are left, the loop takes that many. -/
theorem fill_count_eq {k : Nat} {e : Entry} (he : q.entries.head? = some e) (hk : k ≤ q.entries.length)
    (hroom : batchLength (q.entries.take (k - 1)) + 2 + e.bytes.length < cellPostSize)
    (hfull : k = q.entries.length ∨ cellPostSize ≤ batchLength (q.entries.take k) + 2 + e.bytes.length)
    (hlen : header.length = 7) (hpos : 0 < k) :
    (q.fill queueSize ⟨header, q.queueHead, counts, 0⟩).count = k := by
  have hne : q.queueHead ≠ q.queueTail := fun heq => by simp [entries_eq_nil.mpr heq] at he
  obtain ⟨c, hc, -, -, hcount, hrooms, hstop⟩ := @fill_room _ q header counts hne
  simp only [hasRoom_iff he, length_batch hlen] at hrooms hstop
  rw [hcount]
  rcases Nat.lt_trichotomy c k with hlt | heq | hgt
  · -- there is still room
    have hle : batchLength (q.entries.take c) ≤ batchLength (q.entries.take (k - 1)) :=
      batchLength_take_le (by omega) (by omega)
    omega
  · exact heq
  · -- there was no room already
    have hroom' := hrooms k hgt
    omega

/-- The batch stays in its buffer and is made of the longest part of the queue that
fits, from its front, exactly if the test for the message at the head comes out
right there. -/
theorem batch_longest_iff (f : Firmware) (q : Queue f.bufferSize) (sn : UInt8) (counts : PacketCounts) :
    ((q.fill queueSize ⟨f.header sn, q.queueHead, counts, 0⟩).cellBuffer.length ≤ cellPostSize ∧
        (q.fill queueSize ⟨f.header sn, q.queueHead, counts, 0⟩).cellBuffer =
          f.header sn ++ (q.entries.take (longestFit q.entries)).flatMap Entry.framed ∧
        (q.fill queueSize ⟨f.header sn, q.queueHead, counts, 0⟩).count = longestFit q.entries) ↔
      q.TestedRight := by
  have hlen := f.length_header sn
  rcases hq : q.entries.head? with _ | e
  · have hnil : q.entries = [] := List.head?_eq_none_iff.mp hq
    refine iff_of_false (fun h => ?_) (fun h => ?_)
    · have hlt := @fill_empty _ q _ counts hlen
      have hbuf := h.2.1
      rw [hnil, List.take_nil, List.flatMap_nil, List.append_nil] at hbuf
      rw [hbuf] at hlt
      exact Nat.lt_irrefl _ hlt
    · obtain ⟨e, he, -⟩ := h
      rw [hq] at he
      cases he
  · have hne : q.queueHead ≠ q.queueTail := fun heq => by simp [entries_eq_nil.mpr heq] at hq
    have hpos : 0 < longestFit q.entries :=
      longestFit_pos (by rintro hnil; simp [hnil] at hq) fun _ he => length_bytes_lt he
    obtain ⟨c, hc, hbuf, -, hcount, hrooms, hstop⟩ := @fill_room _ q (f.header sn) counts hne
    simp only [hasRoom_iff hq, length_batch hlen] at hrooms hstop
    constructor
    · rintro ⟨-, -, hlongest⟩
      obtain rfl : c = longestFit q.entries := hcount.symm.trans hlongest
      exact ⟨e, hq, hrooms _ (Nat.sub_lt hpos Nat.one_pos), hstop.imp_right Nat.not_lt.mp⟩
    · rintro ⟨e', he', hroom, hfull⟩
      obtain rfl : e = e' := Option.some.inj (hq.symm.trans he')
      have hlongest : (q.fill queueSize ⟨f.header sn, q.queueHead, counts, 0⟩).count = longestFit q.entries :=
        fill_count_eq hq (longestFit_le _) hroom hfull hlen hpos
      obtain rfl : c = longestFit q.entries := hcount.symm.trans hlongest
      refine ⟨?_, hbuf, hlongest⟩
      rw [hbuf, length_batch hlen]
      exact longestFit_fits _

theorem zero_lt_queueSize : 0 < queueSize := by decide

theorem twenty_lt_queueSize : 20 < queueSize := by decide

/-- Twenty messages, the first empty and the others of 128 bytes. -/
def mixed : Queue sampleApp.bufferSize where
  dataQueue := fun _ _ => 0
  dataLength := fun i => if i.val = 0 then 0 else 128
  dataAddress := fun _ => 0x31
  queueHead := ⟨0, zero_lt_queueSize⟩
  queueTail := ⟨20, twenty_lt_queueSize⟩
  length_le := fun i => by
    split <;> decide

/-- The test has room for an empty message, and 128 bytes are added. -/
theorem batch_overflow :
    cellPostSize < (mixed.fill queueSize
      ⟨sampleApp.header 0, mixed.queueHead, ⟨fun _ => 0, fun _ => 0, 0⟩, 0⟩).cellBuffer.length := by
  decide +kernel

end Queue

end Signpost
