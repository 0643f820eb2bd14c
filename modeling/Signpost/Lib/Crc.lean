/-
Cyclic redundancy checks with the least significant bit first. The register is shifted once for
each bit of the data, and takes the polynomial in when the bit that leaves it and the bit of the
data differ.

As many bits as the register holds can be taken in at once. That is what tables are made from,
and why no two streams that differ within that many bits have the same check.
-/
import Mathlib.Data.List.Basic
import Mathlib.Logic.Function.Iterate

namespace Lib.Crc

variable {w : Nat} {poly c d x y : BitVec w} {bits bits' : List Bool}

def shift (poly c : BitVec w) : BitVec w := if c.getLsbD 0 then (c >>> 1) ^^^ poly else c >>> 1

def feedBit (poly c : BitVec w) (b : Bool) : BitVec w :=
  if b ^^ c.getLsbD 0 then (c >>> 1) ^^^ poly else c >>> 1

def feed (poly c : BitVec w) (bits : List Bool) : BitVec w := bits.foldl (feedBit poly) c

/-- The first bit is the least significant. -/
def ofBits (w : Nat) (bits : List Bool) : BitVec w := (BitVec.ofBoolListLE bits).setWidth w

@[simp] theorem feed_nil : feed poly c [] = c := rfl

@[simp] theorem feed_cons (b : Bool) : feed poly c (b :: bits) = feed poly (feedBit poly c b) bits := rfl

theorem feed_append : feed poly c (bits ++ bits') = feed poly (feed poly c bits) bits' := List.foldl_append

theorem getLsbD_ofBits (i : Nat) : (ofBits w bits).getLsbD i = (decide (i < w) && bits.getD i false) := by
  simp [ofBits]

/-! ## Shifts -/

theorem shift_xor : shift poly (c ^^^ d) = shift poly c ^^^ shift poly d := by
  unfold shift
  rw [BitVec.getLsbD_xor, BitVec.ushiftRight_xor_distrib]
  cases c.getLsbD 0 <;> cases d.getLsbD 0
  · rfl
  · exact BitVec.xor_assoc ..
  · show (c >>> 1 ^^^ d >>> 1) ^^^ poly = (c >>> 1 ^^^ poly) ^^^ d >>> 1
    ac_rfl
  · show c >>> 1 ^^^ d >>> 1 = (c >>> 1 ^^^ poly) ^^^ (d >>> 1 ^^^ poly)
    calc c >>> 1 ^^^ d >>> 1 = c >>> 1 ^^^ d >>> 1 ^^^ (poly ^^^ poly) := by rw [BitVec.xor_self, BitVec.xor_zero]
      _ = (c >>> 1 ^^^ poly) ^^^ (d >>> 1 ^^^ poly) := by ac_rfl

theorem shifts_xor (n : Nat) : (shift poly)^[n] (c ^^^ d) = (shift poly)^[n] c ^^^ (shift poly)^[n] d := by
  induction n generalizing c d with
  | zero => rfl
  | succ n ih => simp only [Function.iterate_succ, Function.comp_apply, shift_xor, ih]

theorem shifts_of_low_zero {n : Nat} (h : ∀ i < n, c.getLsbD i = false) : (shift poly)^[n] c = c >>> n := by
  induction n with
  | zero => exact (BitVec.ushiftRight_zero c).symm
  | succ n ih =>
    have hout : (c >>> n).getLsbD 0 = false := by
      rw [BitVec.getLsbD_ushiftRight]
      exact h n (Nat.lt_succ_self n)
    rw [Function.iterate_succ_apply', ih fun i hi => h i (Nat.lt_succ_of_lt hi), shift, hout,
      BitVec.shiftRight_add]
    rfl

/-- A table has the shifts of what leaves the register; the rest only moves. -/
theorem shifts_eq_table {n : Nat} (hlow : ∀ i < n, x.getLsbD i = c.getLsbD i)
    (hhigh : ∀ i, n ≤ i → x.getLsbD i = false) : (shift poly)^[n] c = (c >>> n) ^^^ (shift poly)^[n] x := by
  have hzero : ∀ i < n, (c ^^^ x).getLsbD i = false := by
    intro i hi
    rw [BitVec.getLsbD_xor, hlow i hi, Bool.xor_self]
  have hgone : x >>> n = 0#w := by
    refine BitVec.eq_of_getLsbD_eq fun i _ => ?_
    rw [BitVec.getLsbD_ushiftRight, hhigh _ (Nat.le_add_right n i), BitVec.getLsbD_zero]
  calc (shift poly)^[n] c = (shift poly)^[n] (c ^^^ x ^^^ x) := by
        rw [BitVec.xor_assoc, BitVec.xor_self, BitVec.xor_zero]
    _ = ((c ^^^ x) >>> n) ^^^ (shift poly)^[n] x := by rw [shifts_xor, shifts_of_low_zero hzero]
    _ = (c >>> n) ^^^ (shift poly)^[n] x := by rw [BitVec.ushiftRight_xor_distrib, hgone, BitVec.xor_zero]

/-! ## Several bits at once -/

theorem feedBit_eq_shift (hw : 0 < w) (b : Bool) : feedBit poly c b = shift poly (c ^^^ ofBits w [b]) := by
  have hbit : (c ^^^ ofBits w [b]).getLsbD 0 = (b ^^ c.getLsbD 0) := by
    rw [BitVec.getLsbD_xor, getLsbD_ofBits, Bool.xor_comm]
    simp [hw]
  have hrest : (c ^^^ ofBits w [b]) >>> 1 = c >>> 1 := by
    refine BitVec.eq_of_getLsbD_eq fun i _ => ?_
    simp [getLsbD_ofBits]
  rw [feedBit, shift, hbit, hrest]

theorem feed_eq_shifts (h : bits.length ≤ w) : feed poly c bits = (shift poly)^[bits.length] (c ^^^ ofBits w bits) := by
  induction bits generalizing c with
  | nil =>
    have hnone : ofBits w [] = 0#w := BitVec.eq_of_getLsbD_eq fun i _ => by simp [getLsbD_ofBits]
    rw [hnone, BitVec.xor_zero]
    rfl
  | cons b bits ih =>
    have hw : 0 < w := Nat.lt_of_lt_of_le (Nat.succ_pos _) h
    have hlength : bits.length + 1 ≤ w := h
    have hsplit : ofBits w (b :: bits) = ofBits w [b] ^^^ ofBits w (false :: bits) := by
      refine BitVec.eq_of_getLsbD_eq fun i _ => ?_
      rw [BitVec.getLsbD_xor, getLsbD_ofBits, getLsbD_ofBits, getLsbD_ofBits]
      cases i <;> simp
    have hrest : shift poly (ofBits w (false :: bits)) = ofBits w bits := by
      have hout : (ofBits w (false :: bits)).getLsbD 0 = false := by simp [getLsbD_ofBits]
      rw [shift, hout]
      refine BitVec.eq_of_getLsbD_eq fun i hi => ?_
      show (ofBits w (false :: bits) >>> 1).getLsbD i = _
      rw [BitVec.getLsbD_ushiftRight, getLsbD_ofBits, getLsbD_ofBits, Nat.add_comm 1 i, List.getD_cons_succ]
      rcases Nat.lt_or_ge (i + 1) w with hlt | hge
      · simp [hlt, hi]
      · rw [List.getD_eq_getElem?_getD, List.getElem?_eq_none (by omega)]
        simp
    rw [feed_cons, ih (Nat.le_of_succ_le h), feedBit_eq_shift hw, hsplit, ← BitVec.xor_assoc, List.length_cons,
      Function.iterate_succ_apply, shift_xor (c := c ^^^ ofBits w [b]), hrest]

/-! ## What is told apart -/

theorem width_pos (hpoly : poly.getLsbD (w - 1) = true) : 0 < w := by
  rcases Nat.eq_zero_or_pos w with rfl | hw
  · rw [BitVec.getLsbD_of_ge poly _ (Nat.zero_le _)] at hpoly
    exact absurd hpoly Bool.false_ne_true
  · exact hw

theorem shift_injective (hpoly : poly.getLsbD (w - 1) = true) : Function.Injective (shift poly) := by
  have hw := width_pos hpoly
  have hzero : ∀ e : BitVec w, shift poly e = 0#w → e = 0#w := by
    intro e he
    have hmoved : (e >>> 1).getLsbD (w - 1) = false := by
      rw [BitVec.getLsbD_ushiftRight]
      exact BitVec.getLsbD_of_ge e _ (by omega)
    unfold shift at he
    split at he
    · have htop := congrArg (fun v : BitVec w => v.getLsbD (w - 1)) he
      simp only [BitVec.getLsbD_xor, hmoved, hpoly, BitVec.getLsbD_zero] at htop
      exact absurd htop (by decide)
    · next hlow =>
      refine BitVec.eq_of_getLsbD_eq fun i _ => ?_
      rw [BitVec.getLsbD_zero]
      cases i with
      | zero => exact Bool.not_eq_true _ ▸ hlow
      | succ i =>
        have hbit := congrArg (fun v : BitVec w => v.getLsbD i) he
        simpa only [BitVec.getLsbD_ushiftRight, BitVec.getLsbD_zero, Nat.add_comm 1 i] using hbit
  intro c d h
  have hxor := hzero (c ^^^ d) (by rw [shift_xor, h, BitVec.xor_self])
  calc c = c ^^^ d ^^^ d := by rw [BitVec.xor_assoc, BitVec.xor_self, BitVec.xor_zero]
    _ = d := by rw [hxor, BitVec.zero_xor]

theorem shifts_injective (hpoly : poly.getLsbD (w - 1) = true) (n : Nat) : Function.Injective (shift poly)^[n] :=
  (shift_injective hpoly).iterate n

theorem feed_inj (hpoly : poly.getLsbD (w - 1) = true) : feed poly c bits = feed poly d bits ↔ c = d := by
  refine ⟨fun h => ?_, fun h => h ▸ rfl⟩
  induction bits generalizing c d with
  | nil => exact h
  | cons b bits ih =>
    have hbit := ih h
    rw [feedBit_eq_shift (width_pos hpoly), feedBit_eq_shift (width_pos hpoly)] at hbit
    exact (BitVec.xor_left_inj _).mp (shift_injective hpoly hbit)

theorem feed_bits_inj (hpoly : poly.getLsbD (w - 1) = true) (hlength : bits.length = bits'.length)
    (h : bits.length ≤ w) : feed poly c bits = feed poly c bits' ↔ bits = bits' := by
  refine ⟨fun hfeed => ?_, fun hbits => hbits ▸ rfl⟩
  rw [feed_eq_shifts h, feed_eq_shifts (hlength ▸ h), ← hlength] at hfeed
  have hword := (BitVec.xor_right_inj _).mp (shifts_injective hpoly _ hfeed)
  refine List.ext_getElem hlength fun i hi hi' => ?_
  have hbit := congrArg (fun v : BitVec w => v.getLsbD i) hword
  simp only [getLsbD_ofBits, Nat.lt_of_lt_of_le hi h, decide_true, Bool.true_and] at hbit
  simpa [hi, hi'] using hbit

/-- The streams differ, and only within `n` bits that follow each other. -/
def Burst (n : Nat) (bits bits' : List Bool) : Prop :=
  ∃ before burst burst' after, bits = before ++ burst ++ after ∧ bits' = before ++ burst' ++ after ∧
    burst.length = burst'.length ∧ burst.length ≤ n ∧ burst ≠ burst'

/-- **A burst that the register could hold changes the check.** -/
theorem feed_ne_of_burst (hpoly : poly.getLsbD (w - 1) = true) (h : Burst w bits bits') :
    feed poly c bits ≠ feed poly c bits' := by
  obtain ⟨before, burst, burst', after, rfl, rfl, hlength, hle, hne⟩ := h
  rw [feed_append, feed_append, feed_append, feed_append]
  intro hfeed
  exact hne ((feed_bits_inj hpoly hlength hle).mp ((feed_inj hpoly).mp hfeed))

end Lib.Crc
