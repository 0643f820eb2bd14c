/-
The scanner of the spectrum: it adds up the amplitudes of every sweep for 80 bins of three
amplitudes each, and from the thirty-first sweep on it computes the mean and the deviation.

The three sums of a bin are followed over any number of sweeps. What is under the root is a
difference of a mean and a square of a mean, both rounded toward zero, and is never negative; the
sums stay in their 32 bits for long enough.
-/
import Mathlib.Data.List.Induction
import Mathlib.Data.Nat.Sqrt
import Signpost.Lib.Cells
import Signpost.Lib.TruncatedMean

namespace Signpost

open Lib TruncatedMean

namespace SpectrumScanner

/-- The outcome of a signed operation. There is none if it overflows. -/
def int (x : Int) : Option Int32 :=
  if h : Int32.minValue.toInt ≤ x ∧ x ≤ Int32.maxValue.toInt then some (Int32.ofIntLE x h.1 h.2) else none

/-- `sqrt` as an `int8_t`. There is no outcome if it is not a number, or does not fit. -/
def sqrt (x : Int32) : Option Int8 :=
  if 0 ≤ x.toInt ∧ x.toInt.toNat.sqrt < 128 then some (Int8.ofNat x.toInt.toNat.sqrt) else none

/-- `getAmplitudeDBM` of a sweep. -/
abbrev SweepData := Nat → Int16

/-- The cells of one bin in the arrays. -/
structure Bin where
  binMax : Int8
  binAccumulator : Int32
  stdAccumulator : Int32
  binStd : Int8
  binMean : Int8

structure State where
  bins : Fin 80 → Bin
  sweepCounter : Int32

def boot : State := ⟨fun _ => ⟨-127, 0, 0, 0, 0⟩, 0⟩

namespace Bin

/-- Three amplitudes of a sweep. As 16-bit numbers they have sums and squares that fit. -/
def sweep (data : SweepData) (i : Fin 80) (b : Bin) : Option Bin := do
  let one := data (3 * i)
  let two := data (3 * i + 1)
  let three := data (3 * i + 2)
  let av := Int16.ofInt ((one.toInt + two.toInt + three.toInt).tdiv 3)
  let imax := if two < one then one else two
  let max := if three < imax then imax else three
  let binMax := if b.binMax.toInt < max.toInt then max.toInt8 else b.binMax
  let binAccumulator ← int (b.binAccumulator.toInt + av.toInt)
  let withOne ← int (b.stdAccumulator.toInt + one.toInt * one.toInt)
  let withTwo ← int (withOne.toInt + two.toInt * two.toInt)
  let stdAccumulator ← int (withTwo.toInt + three.toInt * three.toInt)
  some { b with binMax, binAccumulator, stdAccumulator }

/-- The counter is above 30 where the mean is computed. -/
def withMean (sweepCounter : Int32) (b : Bin) : Bin :=
  { b with binMean := Int8.ofInt (b.binAccumulator.toInt.tdiv sweepCounter.toInt) }

/-- The argument of `sqrt`. -/
def sqrtArgument (sweepCounter : Int32) (b : Bin) : Option Int32 := do
  let count ← int (sweepCounter.toInt * 3)
  int (b.stdAccumulator.toInt.tdiv count.toInt - b.binMean.toInt * b.binMean.toInt)

def metrics (sweepCounter : Int32) (b : Bin) : Option Bin := do
  let b := b.withMean sweepCounter
  let argument ← b.sqrtArgument sweepCounter
  let binStd ← sqrt argument
  some { b with binStd }

end Bin

namespace State

def sweep (s : State) (data : SweepData) : Option State := do
  let bins ← forCells (Bin.sweep data) (List.finRange 80) s.bins
  let sweepCounter ← int (s.sweepCounter.toInt + 1)
  some { bins, sweepCounter }

def metrics (s : State) : Option State := do
  let bins ← forCells (fun _ => Bin.metrics s.sweepCounter) (List.finRange 80) s.bins
  some { s with bins }

end State

/-- What `processReceivedString` and `getLastMessage` say. -/
inductive Received where
  | failure
  | config
  | sweep (isValid : Bool) (data : SweepData)
  | other

/-- A round of the main loop. -/
def State.receive (s : State) : Received → Option State
  | .sweep true data => do
    let s ← s.sweep data
    if 30 < s.sweepCounter.toInt then s.metrics else some s
  | .sweep false _ | .failure | .config | .other => some s

/-! ## Sums -/

/-- The amplitudes of a bin in a sweep. -/
def triple (data : SweepData) (i : Fin 80) : List Int :=
  [(data (3 * i)).toInt, (data (3 * i + 1)).toInt, (data (3 * i + 2)).toInt]

def triples (sweeps : List SweepData) (i : Fin 80) : List (List Int) := sweeps.map fun data => triple data i

/-- The sums are those of the sweeps so far. -/
structure Sums (sweeps : List SweepData) (s : State) : Prop where
  accumulator : ∀ i, (s.bins i).binAccumulator.toInt = ((triples sweeps i).map mean).sum
  squares : ∀ i, (s.bins i).stdAccumulator.toInt = squares (triples sweeps i).flatten
  counter : s.sweepCounter.toInt = sweeps.length

section
variable {x : Int} {y : Int32} {data : SweepData} {i : Fin 80} {b b' c : Bin} {sweeps : List SweepData} {s s' : State}

theorem int_eq_some : int x = some y ↔ y.toInt = x := by
  rw [int]
  split
  · next h =>
    rw [Option.some_inj, ← Int32.toInt_inj, Int32.toInt_ofIntLE]
    exact eq_comm
  · next h =>
    refine ⟨nofun, fun heq => absurd ?_ h⟩
    rw [← heq]
    exact ⟨y.minValue_le_toInt, y.toInt_le⟩

theorem exists_int (hmin : Int32.minValue.toInt ≤ x) (hmax : x ≤ Int32.maxValue.toInt) :
    ∃ y, int x = some y ∧ y.toInt = x :=
  ⟨_, dif_pos ⟨hmin, hmax⟩, Int32.toInt_ofIntLE⟩

theorem natCast_squares_triple : ((squares (triple data i) : Nat) : Int) =
    (data (3 * i)).toInt * (data (3 * i)).toInt + ((data (3 * i + 1)).toInt * (data (3 * i + 1)).toInt +
      (data (3 * i + 2)).toInt * (data (3 * i + 2)).toInt) := by
  simp only [triple, squares_cons, squares_nil, Nat.pow_two, Int.natCast_add, Int.natCast_mul, Int.natAbs_mul_self',
    Nat.add_zero]

/-- The average of the three fits an `int16_t`. -/
theorem toInt_av : (Int16.ofInt (((data (3 * i)).toInt + (data (3 * i + 1)).toInt +
    (data (3 * i + 2)).toInt).tdiv 3)).toInt = mean (triple data i) := by
  have hsum : ((data (3 * i)).toInt + (data (3 * i + 1)).toInt + (data (3 * i + 2)).toInt).tdiv 3 =
      mean (triple data i) := by
    simp [mean, triple, Int.add_assoc]
  have hmem : ∀ x ∈ triple data i, -2 ^ 15 ≤ x ∧ x ≤ 2 ^ 15 - 1 := by
    simp only [triple, List.forall_mem_cons]
    exact ⟨⟨Int16.le_toInt _, Int16.toInt_le _⟩, ⟨Int16.le_toInt _, Int16.toInt_le _⟩,
      ⟨Int16.le_toInt _, Int16.toInt_le _⟩, fun _ hx => absurd hx List.not_mem_nil⟩
  have hle := le_mean (fun x hx => (hmem x hx).1) (List.cons_ne_nil _ _)
  have hlt := mean_le (fun x hx => (hmem x hx).2) (List.cons_ne_nil _ _)
  rw [hsum]
  exact Int16.toInt_ofInt_of_le hle (Int.lt_of_le_sub_one hlt)

theorem Bin.sweep_eq_some (h : b.sweep data i = some b') :
    b'.binAccumulator.toInt = b.binAccumulator.toInt + mean (triple data i) ∧
      b'.stdAccumulator.toInt = b.stdAccumulator.toInt + squares (triple data i) := by
  simp only [sweep, Option.bind_eq_bind, Option.bind_eq_some_iff, int_eq_some, Option.some_inj, toInt_av] at h
  obtain ⟨acc, hacc, one, hone, two, htwo, three, hthree, rfl⟩ := h
  refine ⟨hacc, ?_⟩
  rw [natCast_squares_triple, hthree, htwo, hone]
  simp only [Int.add_assoc]

theorem exists_int_add_square (y : Int32) (x : Int16) (h : y.toInt + x.toInt * x.toInt ≤ Int32.maxValue.toInt) :
    ∃ z, int (y.toInt + x.toInt * x.toInt) = some z ∧ z.toInt = y.toInt + x.toInt * x.toInt :=
  exists_int (Int.le_trans y.minValue_le_toInt (Int.le_add_of_nonneg_right (mul_self_nonneg _))) h

theorem Bin.exists_sweep (hmin : Int32.minValue.toInt ≤ b.binAccumulator.toInt + mean (triple data i))
    (hmax : b.binAccumulator.toInt + mean (triple data i) ≤ Int32.maxValue.toInt)
    (hstd : b.stdAccumulator.toInt + squares (triple data i) ≤ Int32.maxValue.toInt) :
    ∃ b', b.sweep data i = some b' := by
  have htwo := mul_self_nonneg (data (3 * i + 1)).toInt
  have hthree := mul_self_nonneg (data (3 * i + 2)).toInt
  rw [natCast_squares_triple] at hstd
  obtain ⟨acc, hacc, -⟩ := exists_int hmin hmax
  obtain ⟨withOne, hone, heqOne⟩ := exists_int_add_square b.stdAccumulator (data (3 * i)) (by omega)
  obtain ⟨withTwo, htwo, heqTwo⟩ := exists_int_add_square withOne (data (3 * i + 1)) (by omega)
  obtain ⟨std, hstd, -⟩ := exists_int_add_square withTwo (data (3 * i + 2)) (by omega)
  refine Option.isSome_iff_exists.mp ?_
  simp only [sweep, toInt_av, hacc, hone, htwo, hstd, Option.bind_eq_bind, Option.bind_some, Option.isSome_some]

theorem Bin.exists_sweep_of_eq (h : b.sweep data i = some b') (hacc : c.binAccumulator = b.binAccumulator)
    (hstd : c.stdAccumulator = b.stdAccumulator) : ∃ c', c.sweep data i = some c' := by
  simp only [sweep, Option.bind_eq_bind, Option.bind_eq_some_iff] at h
  obtain ⟨acc, hacc', one, hone, two, htwo, three, hthree, -⟩ := h
  refine Option.isSome_iff_exists.mp ?_
  simp only [sweep, hacc, hstd, hacc', hone, htwo, hthree, Option.bind_eq_bind, Option.bind_some, Option.isSome_some]

theorem sums_boot : Sums [] boot := ⟨fun _ => rfl, fun _ => rfl, rfl⟩

theorem triples_concat : triples (sweeps ++ [data]) i = triples sweeps i ++ [triple data i] := List.map_append

theorem Sums.accumulator_concat (hs : Sums sweeps s) (data : SweepData) (i : Fin 80) :
    (s.bins i).binAccumulator.toInt + mean (triple data i) = ((triples (sweeps ++ [data]) i).map mean).sum := by
  rw [triples_concat, List.map_append, List.sum_append, hs.accumulator, List.map_singleton, List.sum_singleton]

theorem Sums.squares_concat (hs : Sums sweeps s) (data : SweepData) (i : Fin 80) :
    (s.bins i).stdAccumulator.toInt + (TruncatedMean.squares (triple data i) : Nat) =
      (TruncatedMean.squares (triples (sweeps ++ [data]) i).flatten : Nat) := by
  rw [triples_concat, List.flatten_append, List.flatten_singleton, squares_append, hs.squares, Int.natCast_add]

theorem Sums.sweep (hs : Sums sweeps s) (h : s.sweep data = some s') : Sums (sweeps ++ [data]) s' := by
  simp only [State.sweep, Option.bind_eq_bind, Option.bind_eq_some_iff, Option.some_inj] at h
  obtain ⟨bins, hbins, counter, hcounter, rfl⟩ := h
  have hbin := fun i => Bin.sweep_eq_some (forCells_finRange.mp hbins i)
  refine ⟨fun i => ?_, fun i => ?_, ?_⟩
  · rw [(hbin i).1, hs.accumulator_concat]
  · rw [(hbin i).2, hs.squares_concat]
  · rw [int_eq_some.mp hcounter, hs.counter, List.length_append]
    rfl

theorem sums_of_sweeps (h : sweeps.foldlM State.sweep boot = some s) : Sums sweeps s := by
  induction sweeps using List.reverseRecOn generalizing s with
  | nil =>
    cases h
    exact sums_boot
  | append_singleton sweeps data ih =>
    rw [List.foldlM_append] at h
    obtain ⟨t, ht, hdata⟩ := Option.bind_eq_some_iff.mp h
    exact (ih ht).sweep (by simpa using hdata)

end

/-! ## The deviation -/

/-- The amplitudes that are read have eight bits. -/
def SweepData.EightBits (data : SweepData) : Prop := ∀ j < 240, -128 ≤ (data j).toInt ∧ (data j).toInt ≤ 127

/-- What the argument of `sqrt` is as a number. -/
def Bin.deviation (sweepCounter : Int32) (b : Bin) : Int :=
  b.stdAccumulator.toInt.tdiv (sweepCounter.toInt * 3) - b.binMean.toInt * b.binMean.toInt

/-- The mean of a bin fits its type, and `sqrt` is not given a negative number. It is given a number
as long as three times the number of sweeps fits. -/
structure State.DeviationReal (s : State) (i : Fin 80) : Prop where
  mean : ((s.bins i).withMean s.sweepCounter).binMean.toInt =
    (s.bins i).binAccumulator.toInt.tdiv s.sweepCounter.toInt
  nonneg : 0 ≤ ((s.bins i).withMean s.sweepCounter).deviation s.sweepCounter
  argument : ∀ x, ((s.bins i).withMean s.sweepCounter).sqrtArgument s.sweepCounter = some x → 0 ≤ x.toInt
  defined : s.sweepCounter.toInt * 3 ≤ Int32.maxValue.toInt →
    ∃ x, ((s.bins i).withMean s.sweepCounter).sqrtArgument s.sweepCounter = some x ∧
      x.toInt = ((s.bins i).withMean s.sweepCounter).deviation s.sweepCounter

section
variable {sweeps : List SweepData} {s : State}

theorem length_of_mem_triples (sweeps : List SweepData) (i : Fin 80) : ∀ g ∈ triples sweeps i, g.length = 3 :=
  fun _ hg => by
    obtain ⟨data, -, rfl⟩ := List.mem_map.mp hg
    rfl

theorem mem_triples (h : ∀ data ∈ sweeps, data.EightBits) (i : Fin 80) :
    ∀ g ∈ triples sweeps i, ∀ x ∈ g, -((128 : Nat) : Int) ≤ x ∧ x < (128 : Nat) := fun g hg x hx => by
  obtain ⟨data, hdata, rfl⟩ := List.mem_map.mp hg
  have hbits := h data hdata
  have hi := i.isLt
  simp only [triple, List.mem_cons, List.not_mem_nil, or_false] at hx
  rcases hx with rfl | rfl | rfl
  · exact ⟨(hbits _ (by omega)).1, Int.lt_of_le_sub_one (hbits _ (by omega)).2⟩
  · exact ⟨(hbits _ (by omega)).1, Int.lt_of_le_sub_one (hbits _ (by omega)).2⟩
  · exact ⟨(hbits _ (by omega)).1, Int.lt_of_le_sub_one (hbits _ (by omega)).2⟩

theorem mem_means (h : ∀ data ∈ sweeps, data.EightBits) (i : Fin 80) :
    ∀ y ∈ (triples sweeps i).map mean, -2 ^ 7 ≤ y ∧ y ≤ 2 ^ 7 - 1 := fun y hy => by
  obtain ⟨g, hg, rfl⟩ := List.mem_map.mp hy
  have hne : g ≠ [] := List.ne_nil_of_length_pos (by rw [length_of_mem_triples sweeps i g hg]; decide)
  exact ⟨le_mean (fun x hx => (mem_triples h i g hg x hx).1) hne,
    mean_le (fun x hx => Int.le_sub_one_of_lt (mem_triples h i g hg x hx).2) hne⟩

theorem sum_means_le (h : ∀ data ∈ sweeps, data.EightBits) (i : Fin 80) :
    -128 * (sweeps.length : Int) ≤ ((triples sweeps i).map mean).sum ∧
      ((triples sweeps i).map mean).sum ≤ 127 * (sweeps.length : Int) := by
  have hlength : ((triples sweeps i).map mean).length = sweeps.length := by
    rw [List.length_map, triples, List.length_map]
  have hle := le_sum fun y hy => (mem_means h i y hy).1
  have hlt := sum_le fun y hy => (mem_means h i y hy).2
  rw [hlength] at hle hlt
  exact ⟨hle, hlt⟩

theorem squares_triples_le (h : ∀ data ∈ sweeps, data.EightBits) (i : Fin 80) :
    TruncatedMean.squares (triples sweeps i).flatten ≤ sweeps.length * 3 * 128 ^ 2 := by
  have hmem : ∀ x ∈ (triples sweeps i).flatten, -((128 : Nat) : Int) ≤ x ∧ x < (128 : Nat) := fun x hx => by
    obtain ⟨g, hg, hxg⟩ := List.mem_flatten.mp hx
    exact mem_triples h i g hg x hxg
  have hle := squares_le hmem
  rwa [length_flatten (length_of_mem_triples sweeps i), triples, List.length_map] at hle

theorem Sums.tdiv (hs : Sums sweeps s) (i : Fin 80) :
    (s.bins i).binAccumulator.toInt.tdiv s.sweepCounter.toInt = mean ((triples sweeps i).map mean) := by
  rw [hs.accumulator, hs.counter, mean, List.length_map, triples, List.length_map]

theorem Sums.binMean (hs : Sums sweeps s) (h : ∀ data ∈ sweeps, data.EightBits) (hne : sweeps ≠ []) (i : Fin 80) :
    ((s.bins i).withMean s.sweepCounter).binMean.toInt = mean ((triples sweeps i).map mean) := by
  have hnil : (triples sweeps i).map mean ≠ [] := mt List.map_eq_nil_iff.mp (mt List.map_eq_nil_iff.mp hne)
  have hle := le_mean (fun y hy => (mem_means h i y hy).1) hnil
  have hlt := mean_le (fun y hy => (mem_means h i y hy).2) hnil
  rw [Bin.withMean, hs.tdiv]
  exact Int8.toInt_ofInt_of_le hle (Int.lt_of_le_sub_one hlt)

theorem Sums.deviation (hs : Sums sweeps s) (h : ∀ data ∈ sweeps, data.EightBits) (hne : sweeps ≠ []) (i : Fin 80) :
    0 ≤ ((s.bins i).withMean s.sweepCounter).deviation s.sweepCounter ∧
      ((s.bins i).withMean s.sweepCounter).deviation s.sweepCounter < 2 ^ 14 := by
  have hlength : (triples sweeps i).length = sweeps.length := List.length_map _
  have hpos : 0 < (triples sweeps i).length * 3 :=
    Nat.mul_pos (hlength ▸ List.length_pos_iff.mpr hne) (by decide)
  have hle := sq_mean_means_le (length_of_mem_triples sweeps i) hpos
  have hlt := squares_sub_sq_lt (length_of_mem_triples sweeps i) hpos (mem_triples h i)
  have hdeviation : ((s.bins i).withMean s.sweepCounter).deviation s.sweepCounter =
      ((TruncatedMean.squares (triples sweeps i).flatten / ((triples sweeps i).length * 3) -
        (mean ((triples sweeps i).map mean)).natAbs ^ 2 : Nat) : Int) := by
    rw [Bin.deviation, hs.binMean h hne, Bin.withMean, hs.squares, hs.counter, ← Int.natAbs_mul_self',
      Int.ofNat_sub hle, hlength, Int.natCast_tdiv_eq_ediv, Nat.pow_two]
    rfl
  rw [hdeviation]
  exact ⟨Int.natCast_nonneg _, Int.ofNat_lt.mpr hlt⟩

variable {b : Bin} {sweepCounter x : Int32}

theorem Bin.toInt_sqrtArgument (h : b.sqrtArgument sweepCounter = some x) : x.toInt = b.deviation sweepCounter := by
  simp only [sqrtArgument, Option.bind_eq_bind, Option.bind_eq_some_iff, int_eq_some] at h
  obtain ⟨count, hcount, hx⟩ := h
  rw [hx, hcount, deviation]

theorem Bin.exists_sqrtArgument (hcounter : 0 ≤ sweepCounter.toInt)
    (hcount : sweepCounter.toInt * 3 ≤ Int32.maxValue.toInt)
    (h : 0 ≤ b.deviation sweepCounter ∧ b.deviation sweepCounter < 2 ^ 14) :
    ∃ x, b.sqrtArgument sweepCounter = some x ∧ x.toInt = b.deviation sweepCounter := by
  have hmin : Int32.minValue.toInt ≤ 0 := by decide
  have hmax : (2 ^ 14 : Int) ≤ Int32.maxValue.toInt := by decide
  obtain ⟨count, hcount, heq⟩ := exists_int (Int.le_trans hmin (Int.mul_nonneg hcounter (by decide))) hcount
  obtain ⟨x, hx, heqx⟩ := exists_int (Int.le_trans hmin h.1) (Int.le_trans (Int.le_of_lt h.2) hmax)
  refine ⟨x, ?_, heqx⟩
  rw [sqrtArgument, hcount, Option.bind_eq_bind, Option.bind_some, heq]
  exact hx

theorem Sums.deviationReal (hs : Sums sweeps s) (h : ∀ data ∈ sweeps, data.EightBits) (hne : sweeps ≠ [])
    (i : Fin 80) : s.DeviationReal i := by
  have hdeviation := hs.deviation h hne i
  refine ⟨?_, hdeviation.1, fun x hx => ?_, fun hcount => ?_⟩
  · rw [hs.binMean h hne, hs.tdiv]
  · rw [Bin.toInt_sqrtArgument hx]
    exact hdeviation.1
  · exact Bin.exists_sqrtArgument (hs.counter ▸ Int.natCast_nonneg _) hcount hdeviation

theorem exists_sweeps (h : ∀ data ∈ sweeps, data.EightBits) (hlength : sweeps.length ≤ 43690) :
    ∃ s, sweeps.foldlM State.sweep boot = some s := by
  induction sweeps using List.reverseRecOn with
  | nil => exact ⟨boot, rfl⟩
  | append_singleton sweeps data ih =>
    obtain ⟨s, hs⟩ := ih (fun d hd => h d (List.mem_append_left _ hd))
      (Nat.le_trans (by rw [List.length_append]; exact Nat.le_add_right ..) hlength)
    have hsums := sums_of_sweeps hs
    have hmin : Int32.minValue.toInt = -2147483648 := by decide
    have hmax : Int32.maxValue.toInt = 2147483647 := by decide
    have hbins : ∀ i, ∃ b, (s.bins i).sweep data i = some b := fun i => by
      have hmeans := sum_means_le h i
      have hsquares := squares_triples_le h i
      refine Bin.exists_sweep ?_ ?_ ?_
      · rw [hsums.accumulator_concat]
        omega
      · rw [hsums.accumulator_concat]
        omega
      · rw [hsums.squares_concat]
        omega
    obtain ⟨bins, hbins⟩ := exists_forCells hbins
    obtain ⟨counter, hcounter, -⟩ : ∃ y, int (s.sweepCounter.toInt + 1) = some y ∧ _ := by
      rw [List.length_append, List.length_singleton] at hlength
      have heq := hsums.counter
      exact exists_int (by omega) (by omega)
    refine ⟨⟨bins, counter⟩, ?_⟩
    rw [List.foldlM_append, hs]
    simp [State.sweep, hbins, hcounter]

/-! ## The main loop -/

theorem exists_sqrt (hx : 0 ≤ x.toInt ∧ x.toInt < 2 ^ 14) : ∃ y, sqrt x = some y := by
  refine ⟨_, if_pos ⟨hx.1, Nat.sqrt_lt'.mpr ?_⟩⟩
  have hlt := hx.2
  omega

theorem Sums.exists_metrics (hs : Sums sweeps s) (h : ∀ data ∈ sweeps, data.EightBits) (hne : sweeps ≠ [])
    (hcount : s.sweepCounter.toInt * 3 ≤ Int32.maxValue.toInt) : ∃ s', s.metrics = some s' := by
  have hbin : ∀ i, ∃ binStd, (s.bins i).metrics s.sweepCounter =
      some { (s.bins i).withMean s.sweepCounter with binStd } := fun i => by
    have hdeviation := hs.deviation h hne i
    obtain ⟨x, hx, heq⟩ := Bin.exists_sqrtArgument (hs.counter ▸ Int.natCast_nonneg _) hcount hdeviation
    obtain ⟨y, hy⟩ := exists_sqrt (x := x) (heq ▸ hdeviation)
    refine ⟨y, ?_⟩
    simp only [Bin.metrics, hx, hy, Option.bind_eq_bind, Option.bind_some]
  choose binStd hbin using hbin
  refine ⟨{ s with bins := fun i => { (s.bins i).withMean s.sweepCounter with binStd := binStd i } }, ?_⟩
  rw [State.metrics, forCells_finRange.mpr hbin, Option.bind_eq_bind, Option.bind_some]

/-- The valid sweeps among what is received. -/
def sweepsOf (received : List Received) : List SweepData := received.filterMap fun r =>
  match r with
  | .sweep true data => some data
  | .sweep false _ | .failure | .config | .other => none

theorem Sums.exists_sweep {s' t : State} {data : SweepData} (hs' : Sums sweeps s') (hs : Sums sweeps s)
    (h : s.sweep data = some t) : ∃ t', s'.sweep data = some t' := by
  simp only [State.sweep, Option.bind_eq_bind, Option.bind_eq_some_iff, Option.some_inj] at h
  obtain ⟨bins, hbins, counter, hcounter, -⟩ := h
  have hcells : ∀ i, ∃ b, (s'.bins i).sweep data i = some b := fun i =>
    Bin.exists_sweep_of_eq (forCells_finRange.mp hbins i)
      (Int32.toInt_inj.mp ((hs'.accumulator i).trans (hs.accumulator i).symm))
      (Int32.toInt_inj.mp ((hs'.squares i).trans (hs.squares i).symm))
  obtain ⟨bins', hbins'⟩ := exists_forCells hcells
  refine ⟨⟨bins', counter⟩, ?_⟩
  rw [State.sweep, hbins', Option.bind_eq_bind, Option.bind_some, hs'.counter, ← hs.counter, hcounter]
  rfl

/-- A valid sweep is taken where its sums do not overflow, with the metrics if they are due. -/
theorem Sums.exists_receive {s' t : State} {data : SweepData} (hs' : Sums sweeps s') (hs : Sums sweeps s)
    (hdata : s.sweep data = some t) (h : ∀ d ∈ sweeps ++ [data], d.EightBits)
    (hcount : t.sweepCounter.toInt * 3 ≤ Int32.maxValue.toInt) : ∃ t', s'.receive (.sweep true data) = some t' := by
  obtain ⟨u, hu⟩ := hs'.exists_sweep hs hdata
  have hsums := hs'.sweep hu
  rw [(hs.sweep hdata).counter, ← hsums.counter] at hcount
  rw [State.receive, hu, Option.bind_eq_bind, Option.bind_some]
  split
  · exact hsums.exists_metrics h (List.append_ne_nil_of_right_ne_nil _ (List.cons_ne_nil _ _)) hcount
  · exact ⟨u, rfl⟩

theorem sweepsOf_concat (received : List Received) (r : Received) :
    sweepsOf (received ++ [r]) = sweepsOf received ++ sweepsOf [r] := List.filterMap_append

theorem Sums.metrics {s' : State} (hs : Sums sweeps s) (h : s.metrics = some s') : Sums sweeps s' := by
  simp only [State.metrics, Option.bind_eq_bind, Option.bind_eq_some_iff, Option.some_inj] at h
  obtain ⟨bins, hbins, rfl⟩ := h
  have hbin : ∀ i, (bins i).binAccumulator = (s.bins i).binAccumulator ∧
      (bins i).stdAccumulator = (s.bins i).stdAccumulator := fun i => by
    have hmetrics := forCells_finRange.mp hbins i
    simp only [Bin.metrics, Option.bind_eq_bind, Option.bind_eq_some_iff, Option.some_inj] at hmetrics
    obtain ⟨argument, -, binStd, -, heq⟩ := hmetrics
    rw [← heq]
    exact ⟨rfl, rfl⟩
  exact ⟨fun i => (hbin i).1 ▸ hs.accumulator i, fun i => (hbin i).2 ▸ hs.squares i, hs.counter⟩

theorem Sums.receive {s' : State} {r : Received} (hs : Sums sweeps s) (h : s.receive r = some s') :
    Sums (sweeps ++ sweepsOf [r]) s' := by
  have skip (hnone : sweepsOf [r] = []) (heq : s = s') : Sums (sweeps ++ sweepsOf [r]) s' := by
    rw [hnone, List.append_nil, ← heq]
    exact hs
  match r with
  | .failure | .config | .other => exact skip rfl (Option.some.inj h)
  | .sweep false data => exact skip rfl (Option.some.inj h)
  | .sweep true data =>
    rw [State.receive, Option.bind_eq_bind, Option.bind_eq_some_iff] at h
    obtain ⟨t, ht, h⟩ := h
    split at h
    · exact (hs.sweep ht).metrics h
    · cases h
      exact hs.sweep ht

theorem sums_of_received {received : List Received} (h : received.foldlM State.receive boot = some s) :
    Sums (sweepsOf received) s := by
  induction received using List.reverseRecOn generalizing s with
  | nil =>
    cases h
    exact sums_boot
  | append_singleton received r ih =>
    rw [List.foldlM_append] at h
    obtain ⟨t, ht, hr⟩ := Option.bind_eq_some_iff.mp h
    rw [sweepsOf_concat]
    exact (ih ht).receive (by simpa using hr)

/-- The main loop goes on for as long as the sums do not overflow, and three times the number of sweeps. -/
theorem exists_received {received : List Received} (h : ∀ data ∈ sweepsOf received, data.EightBits)
    (hs : (sweepsOf received).foldlM State.sweep boot = some s)
    (hcount : s.sweepCounter.toInt * 3 ≤ Int32.maxValue.toInt) :
    ∃ s', received.foldlM State.receive boot = some s' := by
  induction received using List.reverseRecOn generalizing s with
  | nil => exact ⟨boot, rfl⟩
  | append_singleton received r ih =>
    rw [sweepsOf_concat] at h hs
    have hbefore : ∀ data ∈ sweepsOf received, data.EightBits := fun data hd => h data (List.mem_append_left _ hd)
    have skip (hnone : sweepsOf [r] = []) (hr : ∀ s' : State, s'.receive r = some s') :
        ∃ s', (received ++ [r]).foldlM State.receive boot = some s' := by
      rw [hnone, List.append_nil] at hs
      obtain ⟨s', hs'⟩ := ih hbefore hs hcount
      exact ⟨s', by simp [List.foldlM_append, hs', hr]⟩
    match r with
    | .failure | .config | .other => exact skip rfl fun _ => rfl
    | .sweep false data => exact skip rfl fun _ => rfl
    | .sweep true data =>
      rw [show sweepsOf [.sweep true data] = [data] from rfl, List.foldlM_append] at hs
      obtain ⟨t, ht, hdata⟩ := Option.bind_eq_some_iff.mp hs
      have hdata : t.sweep data = some s := by simpa using hdata
      have hsums := sums_of_sweeps ht
      have hcounter := (hsums.sweep hdata).counter
      rw [List.length_append, List.length_singleton] at hcounter
      obtain ⟨s', hs'⟩ := ih hbefore ht (by have := hsums.counter; omega)
      obtain ⟨u, hu⟩ := (sums_of_received hs').exists_receive hsums hdata h hcount
      exact ⟨u, by simp [List.foldlM_append, hs', hu]⟩

/-- After any sweeps whose sums do not overflow, whatever else is received, the mean of every bin fits
and its deviation is real. -/
theorem deviationReal_of_received (received : List Received) (h : ∀ data ∈ sweepsOf received, data.EightBits)
    (hne : sweepsOf received ≠ []) (hs : (sweepsOf received).foldlM State.sweep boot = some s) (i : Fin 80) :
    s.sweepCounter.toInt = (sweepsOf received).length ∧ s.DeviationReal i ∧
      ∀ t, received.foldlM State.receive boot = some t → t.DeviationReal i :=
  ⟨(sums_of_sweeps hs).counter, (sums_of_sweeps hs).deviationReal h hne i,
    fun _ ht => (sums_of_received ht).deviationReal h hne i⟩

/-- Amplitudes from one end of the range to the other. -/
def alternating : SweepData := fun j => if j % 2 = 0 then -128 else 127

theorem deviationReal_alternating :
    ∃ s, [alternating, fun _ => -1].foldlM State.sweep boot = some s ∧ s.sweepCounter.toInt = 2 ∧
      s.DeviationReal ⟨7, by decide⟩ ∧
      ∀ t, [.config, .sweep true alternating, .failure, .sweep true fun _ => -1].foldlM State.receive boot = some t →
        t.DeviationReal ⟨7, by decide⟩ := by
  have halternating : alternating.EightBits := fun j _ => by
    rw [alternating]
    split <;> decide
  have hone : SweepData.EightBits fun _ => -1 := fun _ _ =>
    (by decide : -128 ≤ (-1 : Int16).toInt ∧ (-1 : Int16).toInt ≤ 127)
  have h : ∀ data ∈ [alternating, fun _ => -1], SweepData.EightBits data :=
    List.forall_mem_cons.mpr ⟨halternating, List.forall_mem_singleton.mpr hone⟩
  obtain ⟨s, hs⟩ := exists_sweeps h (by decide)
  exact ⟨s, hs, deviationReal_of_received [.config, .sweep true alternating, .failure, .sweep true fun _ => -1] h
    (List.cons_ne_nil _ _) hs ⟨7, by decide⟩⟩

end

end SpectrumScanner

end Signpost
