/-
How near the degrees are that the GPS library makes of a coordinate (`to_decimal_degrees`
in `gps.c`), from the field of a sentence on.

The minutes are divided by sixty before they are scaled up, so what is left over of sixty is lost.
How near the result is depends on the number of digits, up to six, and with six of them the products
come to the edge of 32 bits and beyond.
-/
import Mathlib.Algebra.Order.Field.Basic
import Mathlib.Algebra.Order.Ring.Rat
import Mathlib.Tactic.FieldSimp
import Mathlib.Tactic.Linarith
import Mathlib.Tactic.Ring
import Signpost.GpsParse

namespace Signpost

open Lib

/-! ## Coordinates -/

/-- A coordinate as it is written: degrees and minutes, and digits of the minutes
behind a point. -/
structure NmeaCoordinate where
  whole : Bytes
  fraction : Bytes
  whole_ne : whole ≠ []
  digits : ∀ c ∈ whole ++ fraction, signpostIsdigit c = true
  degrees_le : digitsValue whole / 100 ≤ 180
  minutes_lt : digitsValue whole % 100 < 60
  fraction_le : fraction.length ≤ 6
  /-- It is north or east. -/
  positive : Bool

namespace NmeaCoordinate

variable (c : NmeaCoordinate)

def degrees : Nat := digitsValue c.whole / 100

/-- The minutes, in units of the last digit. -/
def minutes : Nat := digitsValue c.whole % 100 * 10 ^ c.fraction.length + digitsValue c.fraction

def direction : Int := if c.positive then 1 else -1

def field : Bytes := c.whole ++ if c.fraction = [] then [] else chr '.' :: c.fraction

def exact : Rat := c.direction * (c.degrees + c.minutes / (60 * 10 ^ c.fraction.length))

/-- What `gps_parse_data` makes of it, with its direction in the next field. -/
def converted (rest : Bytes) : Option Int :=
  (scanFloat (some (c.field ++ chr ',' :: rest))).bind fun coor =>
    toDecimalDegrees { coor with value := coor.value * c.direction }

end NmeaCoordinate

/-! ## Digits -/

section
variable {c : UInt8} {ds es rest : Bytes} {st : FloatScan} {v : Nat}

theorem digitsValue_from (v : Nat) (ds : Bytes) :
    ds.foldl (fun n c => 10 * n + (c.toNat - 48)) v = v * 10 ^ ds.length + digitsValue ds := by
  induction ds generalizing v with
  | nil => simp [digitsValue]
  | cons c ds ih =>
    rw [digitsValue, List.foldl_cons, List.foldl_cons, ih, ih, List.length_cons, Nat.pow_succ]
    ring

theorem digitsValue_cons (c : UInt8) (ds : Bytes) :
    digitsValue (c :: ds) = (c.toNat - 48) * 10 ^ ds.length + digitsValue ds := by
  rw [digitsValue, List.foldl_cons, digitsValue_from, Nat.mul_zero, Nat.zero_add]

theorem digitsValue_append (ds es : Bytes) :
    digitsValue (ds ++ es) = digitsValue ds * 10 ^ es.length + digitsValue es := by
  rw [digitsValue, List.foldl_append, digitsValue_from]
  rfl

theorem digitsValue_lt (h : ∀ c ∈ ds, signpostIsdigit c = true) : digitsValue ds < 10 ^ ds.length := by
  induction ds with
  | nil => exact Nat.one_pos
  | cons c ds ih =>
    have htail := ih fun c hc => h c (List.mem_cons_of_mem _ hc)
    obtain ⟨-, hle⟩ := digit_bounds (h c List.mem_cons_self)
    have hhead : (c.toNat - 48) * 10 ^ ds.length ≤ 9 * 10 ^ ds.length := Nat.mul_le_mul_right _ (by omega)
    rw [digitsValue_cons, List.length_cons, Nat.pow_succ]
    omega

theorem isfield_of_digit (h : signpostIsdigit c = true) : minmeaIsfield c = true := by
  obtain ⟨hlo, hhi⟩ := digit_bounds h
  have hprint : signpostIsprint c = true := by
    simp only [signpostIsprint, Bool.and_eq_true, decide_eq_true_eq]
    exact ⟨UInt8.lt_iff_toNat_lt.mpr (Nat.lt_of_lt_of_le (by decide) hlo),
      UInt8.lt_iff_toNat_lt.mpr (Nat.lt_of_le_of_lt hhi (by decide))⟩
  have hcomma : c ≠ chr ',' := by
    rintro rfl
    cases h
  have hstar : c ≠ chr '*' := by
    rintro rfl
    cases h
  simp [minmeaIsfield, hprint, hcomma, hstar]

/-- A digit is part of the value if that fits, and of its precision if there is a point. -/
theorem scanFloatLoop_digit (hc : signpostIsdigit c = true) (hsign : st.sign = 0) (field : Bytes)
    (hvalue : (if st.value = -1 then 0 else st.value) = v) :
    scanFloatLoop (c :: field) st =
      if 10 * v + (c.toNat - 48) < 2 ^ 31 then
        scanFloatLoop field ⟨0, (10 * v + (c.toNat - 48) : Nat),
          if st.scale ≠ 0 then int32 (10 * st.scale) else st.scale⟩
      else if st.scale ≠ 0 then some ⟨0, v, st.scale⟩ else none := by
  obtain ⟨hlo, hhi⟩ := digit_bounds hc
  have hfield := isfield_of_digit hc
  have hplus : c ≠ chr '+' := by
    rintro rfl
    cases hc
  have hminus : c ≠ chr '-' := by
    rintro rfl
    cases hc
  rw [scanFloatLoop, hfield, if_neg (by simp), if_neg (by simp [hplus]), if_neg (by simp [hminus]), if_pos hc]
  simp only [hvalue, hsign]
  by_cases hfits : 10 * v + (c.toNat - 48) < 2 ^ 31
  · rw [if_pos hfits, if_neg (by omega)]
    congr 2
    omega
  · rw [if_neg hfits, if_pos (by omega)]

theorem int32_of_lt {n : Nat} (h : n < 2 ^ 31) : int32 n = n := Int.bmod_eq_of_le (by omega) (by omega)

theorem scanFloatLoop_digits (hds : ∀ c ∈ ds, signpostIsdigit c = true) {scale : Nat}
    (hfits : v * 10 ^ ds.length + digitsValue ds < 2 ^ 31) (hscale : scale * 10 ^ ds.length < 2 ^ 31) (rest : Bytes) :
    scanFloatLoop (ds ++ rest) ⟨0, v, scale⟩ =
      scanFloatLoop rest ⟨0, (v * 10 ^ ds.length + digitsValue ds : Nat), (scale * 10 ^ ds.length : Nat)⟩ := by
  induction ds generalizing v scale with
  | nil => simp [digitsValue]
  | cons c ds ih =>
    have hvalue : v * 10 ^ (c :: ds).length + digitsValue (c :: ds) =
        (10 * v + (c.toNat - 48)) * 10 ^ ds.length + digitsValue ds := by
      rw [digitsValue_cons, List.length_cons, Nat.pow_succ]
      ring
    have hnext : scale * 10 ^ (c :: ds).length = 10 * scale * 10 ^ ds.length := by
      rw [List.length_cons, Nat.pow_succ]
      ring
    rw [hvalue] at hfits ⊢
    rw [hnext] at hscale ⊢
    have hpow : 1 ≤ 10 ^ ds.length := Nat.one_le_pow _ _ (by decide)
    have hdigit : 10 * v + (c.toNat - 48) < 2 ^ 31 :=
      Nat.lt_of_le_of_lt (Nat.le_trans (Nat.le_mul_of_pos_right _ hpow) (Nat.le_add_right _ _)) hfits
    have hten : int32 (10 * scale : Nat) = (10 * scale : Nat) :=
      int32_of_lt (Nat.lt_of_le_of_lt (Nat.le_mul_of_pos_right _ hpow) hscale)
    rw [List.cons_append, scanFloatLoop_digit (v := v) (hds c List.mem_cons_self) rfl _
      (if_neg (show ¬ (v : Int) = -1 by omega)),
      if_pos hdigit]
    have hstate : (if (scale : Int) ≠ 0 then int32 (10 * scale) else scale) = (10 * scale : Nat) := by
      split
      · exact_mod_cast hten
      · omega
    rw [hstate]
    exact ih (fun c hc => hds c (List.mem_cons_of_mem _ hc)) hfits hscale

theorem scanFloatLoop_whole (hds : ∀ c ∈ ds, signpostIsdigit c = true) (hne : ds ≠ [])
    (hfits : digitsValue ds < 2 ^ 31) (rest : Bytes) :
    scanFloatLoop (ds ++ rest) ⟨0, -1, 0⟩ = scanFloatLoop rest ⟨0, digitsValue ds, 0⟩ := by
  obtain ⟨c, ds, rfl⟩ := List.exists_cons_of_ne_nil hne
  rw [digitsValue_cons] at hfits ⊢
  have hpow : 1 ≤ 10 ^ ds.length := Nat.one_le_pow _ _ (by decide)
  have hdigit : 10 * 0 + (c.toNat - 48) < 2 ^ 31 := by
    have hle := Nat.le_mul_of_pos_right (c.toNat - 48) hpow
    omega
  have hrest := scanFloatLoop_digits (v := c.toNat - 48) (fun c hc => hds c (List.mem_cons_of_mem _ hc)) hfits
    (Nat.lt_of_le_of_lt (Nat.le_of_eq (Nat.zero_mul _)) (by decide)) rest
  rw [Nat.zero_mul] at hrest
  rw [List.cons_append, scanFloatLoop_digit (v := 0) (hds c List.mem_cons_self) rfl _ rfl, if_pos hdigit, Nat.mul_zero,
    Nat.zero_add]
  exact hrest

theorem scanFloatLoop_truncated (hc : signpostIsdigit c = true) {scale : Nat} (hscale : scale ≠ 0)
    (hlong : 2 ^ 31 ≤ 10 * v + (c.toNat - 48)) (rest : Bytes) :
    scanFloatLoop (c :: rest) ⟨0, v, scale⟩ = some ⟨0, v, scale⟩ := by
  rw [scanFloatLoop_digit (v := v) hc rfl _ (if_neg (show ¬ (v : Int) = -1 by omega)), if_neg (by omega),
    if_pos (Int.natCast_ne_zero.mpr hscale)]

end

/-! ## What the scanner makes of a coordinate -/

namespace NmeaCoordinate

variable (c : NmeaCoordinate)

/-- The number that all of its digits are. -/
def value : Nat := digitsValue c.whole * 10 ^ c.fraction.length + digitsValue c.fraction

/-- It fits into 32 bits, or its last digit is left out. -/
def scanned : MinmeaFloat :=
  if c.value < 2 ^ 31 then ⟨c.value, (10 ^ c.fraction.length : Nat)⟩
  else ⟨(c.value / 10 : Nat), (10 ^ (c.fraction.length - 1) : Nat)⟩

theorem digitsValue_whole_lt : digitsValue c.whole < 18100 := by
  have hdegrees := c.degrees_le
  omega

theorem digitsValue_fraction_lt : digitsValue c.fraction < 10 ^ c.fraction.length :=
  digitsValue_lt fun d hd => c.digits d (List.mem_append_right _ hd)

theorem value_eq : c.value = c.degrees * (100 * 10 ^ c.fraction.length) + c.minutes := by
  have hdiv := Nat.div_add_mod (digitsValue c.whole) 100
  rw [value, degrees, minutes]
  conv => lhs; rw [← hdiv]
  ring

theorem minutes_lt_sixty : c.minutes < 60 * 10 ^ c.fraction.length := by
  have hfraction := c.digitsValue_fraction_lt
  have hminutes : (digitsValue c.whole % 100 + 1) * 10 ^ c.fraction.length ≤ 60 * 10 ^ c.fraction.length :=
    Nat.mul_le_mul_right _ c.minutes_lt
  rw [minutes]
  rw [Nat.add_mul, Nat.one_mul] at hminutes
  omega

theorem scanFloat_of_loop {field : Bytes} {v scale : Nat}
    (h : scanFloatLoop field ⟨0, -1, 0⟩ = some ⟨0, v, scale⟩) :
    scanFloat (some field) = some ⟨v, if scale = 0 then 1 else scale⟩ := by
  have hvalue : ¬ ((v : Int) = -1) := by omega
  rw [scanFloat, Option.getD_some, h, Option.bind_some, if_neg fun hnone => hvalue hnone.2]
  simp only [if_neg hvalue, Int.natCast_eq_zero]
  rfl

theorem scanFloatLoop_comma (rest : Bytes) (st : FloatScan) : scanFloatLoop (chr ',' :: rest) st = some st := rfl

theorem scanFloatLoop_fraction (v : Nat) (field : Bytes) :
    scanFloatLoop (chr '.' :: field) ⟨0, v, 0⟩ = scanFloatLoop field ⟨0, v, (1 : Nat)⟩ := rfl

theorem length_fraction_of_long (hlong : 2 ^ 31 ≤ c.value) : c.fraction.length = 6 := by
  refine Nat.le_antisymm c.fraction_le (Nat.lt_of_not_le fun hle => ?_)
  have hfraction := c.digitsValue_fraction_lt
  have hvalue : (digitsValue c.whole + 1) * 10 ^ c.fraction.length ≤ 18100 * 10 ^ 5 :=
    Nat.mul_le_mul c.digitsValue_whole_lt (Nat.pow_le_pow_right (by decide) hle)
  rw [Nat.add_mul, Nat.one_mul] at hvalue
  rw [value] at hlong
  omega

theorem scanFloat_field (rest : Bytes) : scanFloat (some (c.field ++ chr ',' :: rest)) = some c.scanned := by
  have hwhole : ∀ d ∈ c.whole, signpostIsdigit d = true := fun d hd => c.digits d (List.mem_append_left _ hd)
  have hfraction : ∀ d ∈ c.fraction, signpostIsdigit d = true := fun d hd => c.digits d (List.mem_append_right _ hd)
  have hlt := c.digitsValue_whole_lt
  have hstart := scanFloatLoop_whole hwhole c.whole_ne (by omega)
  have hpow : ∀ k ≤ 6, 1 * 10 ^ k < 2 ^ 31 := by decide
  by_cases hnil : c.fraction = []
  · have hvalue : c.value = digitsValue c.whole := by simp [value, hnil, digitsValue]
    have hloop : scanFloatLoop (c.whole ++ chr ',' :: rest) ⟨0, -1, 0⟩ = some ⟨0, digitsValue c.whole, (0 : Nat)⟩ :=
      hstart _
    have hfits : digitsValue c.whole < 2 ^ 31 := by omega
    rw [field, if_pos hnil, List.append_nil, scanFloat_of_loop hloop, scanned, hvalue, if_pos hfits, hnil]
    rfl
  · rw [field, if_neg hnil, List.append_assoc, List.cons_append]
    by_cases hfits : c.value < 2 ^ 31
    · have hloop := scanFloatLoop_digits (v := digitsValue c.whole) hfraction hfits (hpow _ c.fraction_le)
        (chr ',' :: rest)
      rw [scanFloatLoop_comma, ← value, Nat.one_mul] at hloop
      rw [scanFloat_of_loop (((hstart _).trans (scanFloatLoop_fraction ..)).trans hloop), scanned, if_pos hfits,
        if_neg (by positivity)]
    · have hlength := c.length_fraction_of_long (Nat.le_of_not_lt hfits)
      obtain ⟨front, d, hfront⟩ := (List.eq_nil_or_concat c.fraction).resolve_left hnil
      rw [List.concat_eq_append] at hfront
      have hfive : front.length = 5 := by
        rw [hfront, List.length_append, List.length_singleton] at hlength
        omega
      rw [hfront] at hfraction
      have hdigits : ∀ x ∈ front, signpostIsdigit x = true := fun x hx => hfraction x (List.mem_append_left _ hx)
      have hlast : signpostIsdigit d = true := hfraction d (List.mem_append_right _ List.mem_cons_self)
      have hlt' := digitsValue_lt hdigits
      rw [hfive] at hlt'
      have hvalue : c.value = 10 * (digitsValue c.whole * 10 ^ 5 + digitsValue front) + (d.toNat - 48) := by
        rw [value, hlength, hfront, digitsValue_append]
        simp only [List.length_singleton, digitsValue, List.foldl_cons, List.foldl_nil]
        omega
      have hloop := scanFloatLoop_digits (v := digitsValue c.whole) hdigits (by rw [hfive]; omega)
        (hpow _ (by omega)) (d :: (chr ',' :: rest))
      rw [hfive, scanFloatLoop_truncated hlast (by positivity) (by omega)] at hloop
      obtain ⟨-, hdigit⟩ := digit_bounds hlast
      have htenth : c.value / 10 = digitsValue c.whole * 10 ^ 5 + digitsValue front := by omega
      rw [hfront, List.append_assoc, List.singleton_append, scanFloat_of_loop
        (((hstart _).trans (scanFloatLoop_fraction ..)).trans hloop), scanned, if_neg hfits, htenth, hlength]
      rfl

end NmeaCoordinate

/-! ## What is made of that -/

/-- The last step of `to_decimal_degrees`. -/
def rescale (scale : Nat) (x : Int) : Int :=
  if scale = 100000 then x.tdiv 10 else if scale = 1000 then int32 (x * 10) else x

theorem tdiv_sign {s : Int} (hs : s = 1 ∨ s = -1) (a b : Nat) : ((a : Int) * s).tdiv b = (a / b : Nat) * s := by
  rcases hs with rfl | rfl
  · rw [Int.mul_one, Int.mul_one]
    rfl
  · rw [Int.mul_neg_one, Int.mul_neg_one, Int.neg_tdiv]
    rfl

theorem int32_sign {s : Int} (hs : s = 1 ∨ s = -1) {a : Nat} (h : a < 2 ^ 31) : int32 (a * s) = a * s := by
  rcases hs with rfl | rfl
  · exact Int.bmod_eq_of_le (by omega) (by omega)
  · exact Int.bmod_eq_of_le (by omega) (by omega)

theorem toDecimalDegrees_eq {degrees minutes scale : Nat} {s : Int} (hs : s = 1 ∨ s = -1) (hdegrees : degrees ≤ 180)
    (hscale : 0 < scale) (hscale_le : scale ≤ 1000000) (hminutes : minutes < 60 * scale)
    (hfits : degrees * (100 * scale) + minutes < 2 ^ 31) :
    toDecimalDegrees ⟨(degrees * (100 * scale) + minutes : Nat) * s, scale⟩ =
      some (rescale scale (int32 ((degrees * (100 * scale) + minutes / 60 * 100 : Nat) * s))) := by
  have hdivisor : int32 ((scale : Int) * 100) = (100 * scale : Nat) := by
    rw [← int32_of_lt (n := 100 * scale) (by omega)]
    refine congrArg int32 ?_
    push_cast
    ring
  have hquotient : (degrees * (100 * scale) + minutes) / (100 * scale) = degrees := by
    rw [Nat.mul_comm, Nat.mul_add_div (by omega), Nat.div_eq_of_lt (by omega), Nat.add_zero]
  have hdeg : int16 (degrees * s) = degrees * s := by
    rcases hs with rfl | rfl <;> exact Int.bmod_eq_of_le (by omega) (by omega)
  have hproduct : int32 ((degrees : Int) * s * (100 * scale : Nat)) = (degrees * (100 * scale) : Nat) * s := by
    rw [← int32_sign hs (by omega : degrees * (100 * scale) < 2 ^ 31)]
    refine congrArg int32 ?_
    push_cast
    ring
  have hrest : int32 ((degrees * (100 * scale) + minutes : Nat) * s - (degrees * (100 * scale) : Nat) * s) =
      minutes * s := by
    rw [← int32_sign hs (by omega : minutes < 2 ^ 31)]
    refine congrArg int32 ?_
    push_cast
    ring
  have hsixtieth : int32 ((minutes / 60 : Nat) * s * 100) = (minutes / 60 * 100 : Nat) * s := by
    rw [← int32_sign hs (by omega : minutes / 60 * 100 < 2 ^ 31)]
    refine congrArg int32 ?_
    push_cast
    ring
  have hsum : (degrees * (100 * scale) : Nat) * s + (minutes / 60 * 100 : Nat) * s =
      (degrees * (100 * scale) + minutes / 60 * 100 : Nat) * s := by
    push_cast
    ring
  have hne : ¬ ((100 * scale : Nat) : Int) = 0 := by omega
  simp only [toDecimalDegrees, hdivisor, if_neg hne, tdiv_sign hs, hquotient, hdeg, hproduct, hrest]
  have hlong : ((scale : Int) = 100000) = (scale = 100000) := propext (by omega)
  have hshort : ((scale : Int) = 1000) = (scale = 1000) := propext (by omega)
  rw [show (60 : Int) = (60 : Nat) from rfl, tdiv_sign hs, hsixtieth, hsum, rescale]
  simp only [hlong, hshort]

/-! ## How near it is -/

namespace NmeaCoordinate

variable (c : NmeaCoordinate)

/-- A number is within one unit of the degrees, in millionths. -/
def Near (r : Int) : Prop := |(r : Rat) - c.exact * 1000000| ≤ 1

/-- Of a coordinate with up to two digits only zero is near enough, of one with three or
four the minutes are a multiple of sixty units, or nearly with five, and with six, if
the last is not left out, only what is near zero. -/
def Rounds : Prop :=
  match c.fraction.length with
  | 0 | 1 | 2 => c.degrees = 0 ∧ c.minutes = 0
  | 3 | 4 => c.minutes % 60 = 0
  | 5 => c.minutes % 60 ≤ 6
  | _ => if c.value < 2 ^ 31 then c.degrees = 0 ∧ c.minutes < 60 else c.minutes % 600 ≤ 60

theorem direction_cases : c.direction = 1 ∨ c.direction = -1 := by
  rw [direction]
  split
  · exact .inl rfl
  · exact .inr rfl

/-- How far off a number is, in units that are whole. -/
def distance (r : Int) : Int :=
  60 * 10 ^ c.fraction.length * r - (60 * 10 ^ c.fraction.length * c.degrees + c.minutes) * c.direction * 1000000

theorem near_iff (r : Int) : c.Near r ↔ -(60 * 10 ^ c.fraction.length) ≤ c.distance r ∧
    c.distance r ≤ 60 * 10 ^ c.fraction.length := by
  have hunit : (0 : Rat) < 60 * 10 ^ c.fraction.length := by positivity
  have hdistance : (r : Rat) - c.exact * 1000000 = (c.distance r : Int) / (60 * 10 ^ c.fraction.length) := by
    rw [exact, distance]
    push_cast
    field_simp
  rw [Near, hdistance, abs_div, abs_of_pos hunit, div_le_one hunit, abs_le]
  constructor
  · rintro ⟨hlo, hhi⟩
    exact ⟨by exact_mod_cast hlo, by exact_mod_cast hhi⟩
  · rintro ⟨hlo, hhi⟩
    exact ⟨by exact_mod_cast hlo, by exact_mod_cast hhi⟩

theorem near_mul_direction (r : Int) : c.Near (r * c.direction) ↔
    -(60 * 10 ^ c.fraction.length) ≤ 60 * 10 ^ c.fraction.length * r -
        (60 * 10 ^ c.fraction.length * c.degrees + c.minutes) * 1000000 ∧
      60 * 10 ^ c.fraction.length * r - (60 * 10 ^ c.fraction.length * c.degrees + c.minutes) * 1000000 ≤
        60 * 10 ^ c.fraction.length := by
  have hdistance : c.distance (r * c.direction) = (60 * 10 ^ c.fraction.length * r -
      (60 * 10 ^ c.fraction.length * c.degrees + c.minutes) * 1000000) * c.direction := by
    rw [distance]
    ring
  rw [near_iff, hdistance]
  rcases c.direction_cases with hs | hs
  · rw [hs, Int.mul_one]
  · rw [hs, Int.mul_neg_one, neg_le_neg_iff, neg_le, and_comm]

theorem converted_eq (rest : Bytes) : c.converted rest =
    toDecimalDegrees { c.scanned with value := c.scanned.value * c.direction } := by
  rw [converted, scanFloat_field, Option.bind_some]

theorem converted_of_fits (hfits : c.value < 2 ^ 31) (rest : Bytes) : c.converted rest =
    some (rescale (10 ^ c.fraction.length)
      (int32 ((c.degrees * (100 * 10 ^ c.fraction.length) + c.minutes / 60 * 100 : Nat) * c.direction))) := by
  have hscale : 10 ^ c.fraction.length ≤ 1000000 := Nat.pow_le_pow_right (by decide) c.fraction_le
  rw [converted_eq, scanned, if_pos hfits]
  rw [value_eq] at hfits ⊢
  exact toDecimalDegrees_eq c.direction_cases c.degrees_le (by positivity) hscale c.minutes_lt_sixty hfits

theorem converted_of_long (hlong : 2 ^ 31 ≤ c.value) (rest : Bytes) : c.converted rest =
    some (rescale 100000 (int32 ((c.degrees * (100 * 100000) + c.minutes / 10 / 60 * 100 : Nat) * c.direction))) := by
  have hlength := c.length_fraction_of_long hlong
  have hminutes := c.minutes_lt_sixty
  have hdegrees : c.degrees ≤ 180 := c.degrees_le
  have hvalue := c.value_eq
  rw [hlength] at hminutes hvalue
  have htenth : c.value / 10 = c.degrees * (100 * 100000) + c.minutes / 10 := by omega
  rw [converted_eq, scanned, if_neg (by omega), htenth, hlength]
  exact toDecimalDegrees_eq c.direction_cases hdegrees (by decide) (by decide) (by omega) (by omega)

theorem rescale_sign {scale x : Nat} (hx : 10 * x < 2 ^ 31 ∨ scale ≠ 1000 ∧ x < 2 ^ 31) :
    rescale scale (int32 (x * c.direction)) =
      ((if scale = 100000 then x / 10 else if scale = 1000 then 10 * x else x : Nat) : Int) * c.direction := by
  have hs := c.direction_cases
  rw [int32_sign hs (by omega), rescale]
  split
  · exact tdiv_sign hs x 10
  · split
    · rw [← int32_sign hs (by omega : 10 * x < 2 ^ 31)]
      refine congrArg int32 ?_
      push_cast
      ring
    · rfl

theorem short_near_iff {d m p : Nat} (hpos : 0 < p) (hp : p ≤ 100) :
    (-(60 * p) ≤ (60 * p * (d * (100 * p) + m / 60 * 100 : Nat) - (60 * p * d + m) * 1000000 : Int) ∧
      (60 * p * (d * (100 * p) + m / 60 * 100 : Nat) - (60 * p * d + m) * 1000000 : Int) ≤ 60 * p) ↔
        d = 0 ∧ m = 0 := by
  constructor
  · rintro ⟨hlo, -⟩
    have hsixtieth : p * (m / 60 * 60) ≤ p * m := Nat.mul_le_mul_left p (Nat.div_mul_le_self m 60)
    have hminutes : p * m ≤ 100 * m := Nat.mul_le_mul_right m hp
    have hdegrees : p * (p * d) ≤ 100 * (p * d) := Nat.mul_le_mul_right _ hp
    zify at hsixtieth hminutes hdegrees
    push_cast at hlo
    have hsmall : (59400000 : Int) * (p * d) + 990000 * m ≤ 60 * p := by linarith
    have hnone : d = 0 := by
      by_contra hd
      have hle : p ≤ p * d := Nat.le_mul_of_pos_right p (Nat.pos_of_ne_zero hd)
      zify at hle
      omega
    subst hnone
    exact ⟨rfl, by omega⟩
  · rintro ⟨rfl, rfl⟩
    constructor <;> push_cast <;> omega

/-- What is made of a coordinate whose value fits. -/
def made : Int :=
  rescale (10 ^ c.fraction.length)
    (int32 ((c.degrees * (100 * 10 ^ c.fraction.length) + c.minutes / 60 * 100 : Nat) * c.direction))

theorem near_made_short (hle : c.fraction.length ≤ 2) : c.Near c.made ↔ c.degrees = 0 ∧ c.minutes = 0 := by
  have hdegrees : c.degrees ≤ 180 := c.degrees_le
  have hminutes := c.minutes_lt_sixty
  have hp : 10 ^ c.fraction.length ≤ 100 := Nat.pow_le_pow_right (by decide) hle
  have hwhole := Nat.mul_le_mul hdegrees (Nat.mul_le_mul_left 100 hp)
  rw [made, rescale_sign c (.inl (by omega)), if_neg (by omega), if_neg (by omega), near_mul_direction]
  exact_mod_cast short_near_iff (by positivity) hp

theorem near_made_three (hk : c.fraction.length = 3) : c.Near c.made ↔ c.minutes % 60 = 0 := by
  have hdegrees : c.degrees ≤ 180 := c.degrees_le
  have hminutes := c.minutes_lt_sixty
  rw [hk] at hminutes
  rw [made, hk, rescale_sign c (.inl (by omega)), near_mul_direction, hk]
  norm_num only [if_false, if_true]
  clear hdegrees
  omega

theorem near_made_four (hk : c.fraction.length = 4) : c.Near c.made ↔ c.minutes % 60 = 0 := by
  have hdegrees : c.degrees ≤ 180 := c.degrees_le
  have hminutes := c.minutes_lt_sixty
  rw [hk] at hminutes
  rw [made, hk, rescale_sign c (.inl (by omega)), near_mul_direction, hk]
  norm_num only [if_false]
  omega

theorem near_made_five (hk : c.fraction.length = 5) : c.Near c.made ↔ c.minutes % 60 ≤ 6 := by
  have hdegrees : c.degrees ≤ 180 := c.degrees_le
  have hminutes := c.minutes_lt_sixty
  rw [hk] at hminutes
  rw [made, hk, rescale_sign c (.inr ⟨by decide, by omega⟩), near_mul_direction, hk]
  norm_num only [if_true]
  omega

theorem int32_wrapped {s : Int} (hs : s = 1 ∨ s = -1) {x : Nat} (hlo : 2 ^ 31 < x) (hhi : x < 2 ^ 32) :
    int32 (x * s) = (x - 2 ^ 32) * s := by
  have hbmod : (x * s : Int).bmod (2 ^ 32) = ((x - 2 ^ 32) * s : Int).bmod (2 ^ 32) := by
    rcases hs with rfl | rfl
    · rw [Int.mul_one, Int.mul_one]
      exact (Int.sub_bmod_right ..).symm
    · rw [Int.mul_neg_one, Int.mul_neg_one, Int.neg_sub, Int.sub_eq_add_neg, Int.add_comm]
      exact (Int.add_bmod_right ..).symm
  rw [int32, hbmod]
  rcases hs with rfl | rfl <;> exact Int.bmod_eq_of_le (by omega) (by omega)

theorem near_made_six (hk : c.fraction.length = 6) (hfits : c.value < 2 ^ 31) :
    c.Near c.made ↔ c.degrees = 0 ∧ c.minutes < 60 := by
  have hvalue := c.value_eq
  have hminutes := c.minutes_lt_sixty
  rw [hk] at hvalue hminutes
  have hdegrees : c.degrees ≤ 21 := by omega
  by_cases hsmall : c.degrees * (100 * 10 ^ 6) + c.minutes / 60 * 100 < 2 ^ 31
  · rw [made, hk, rescale_sign c (.inr ⟨by decide, hsmall⟩), near_mul_direction, hk]
    norm_num only [if_false]
    omega
  · rw [made, hk, int32_wrapped c.direction_cases (by omega) (by omega), rescale, if_neg (by decide),
      if_neg (by decide), near_mul_direction, hk]
    norm_num only
    omega

/-- The degrees that are made of a coordinate are within one unit of what they are,
north and south, east and west, exactly if they round. -/
theorem near_iff_rounds (rest : Bytes) : (∃ r ∈ c.converted rest, c.Near r) ↔ c.Rounds := by
  by_cases hfits : c.value < 2 ^ 31
  · rw [c.converted_of_fits hfits]
    simp only [Option.mem_some_iff, exists_eq_left', Rounds, if_pos hfits]
    change c.Near c.made ↔ _
    have hlength := c.fraction_le
    have hcases : c.fraction.length = 0 ∨ c.fraction.length = 1 ∨ c.fraction.length = 2 ∨ c.fraction.length = 3 ∨
      c.fraction.length = 4 ∨ c.fraction.length = 5 ∨ c.fraction.length = 6 := by omega
    rcases hcases with hk | hk | hk | hk | hk | hk | hk
    all_goals simp only [hk]
    · exact c.near_made_short (by omega)
    · exact c.near_made_short (by omega)
    · exact c.near_made_short (by omega)
    · exact c.near_made_three hk
    · exact c.near_made_four hk
    · exact c.near_made_five hk
    · exact c.near_made_six hk hfits
  · have hlong := Nat.le_of_not_lt hfits
    have hlength := c.length_fraction_of_long hlong
    have hdegrees : c.degrees ≤ 180 := c.degrees_le
    have hminutes := c.minutes_lt_sixty
    rw [hlength] at hminutes
    rw [c.converted_of_long hlong]
    simp only [Option.mem_some_iff, exists_eq_left', Rounds, hlength, if_neg hfits]
    rw [rescale_sign c (.inr ⟨by decide, by omega⟩), if_pos rfl, near_mul_direction, hlength]
    omega

section

/-- 37 degrees and 23.2475 minutes north. -/
def sampleCoordinate : NmeaCoordinate :=
  ⟨Controller.ofChars "3723", Controller.ofChars "2475", by decide, by decide +kernel, by decide, by decide, by decide,
    true⟩

/-- It is 37387458 and a third millionths of a degree. -/
theorem sampleCoordinate_truncated : sampleCoordinate.converted [] = some 37387400 ∧
    ¬ ∃ r ∈ sampleCoordinate.converted [], sampleCoordinate.Near r := by
  have hconverted : sampleCoordinate.converted [] = some 37387400 := by decide +kernel
  refine ⟨hconverted, ?_⟩
  rintro ⟨r, hr, hnear⟩
  obtain rfl : 37387400 = r := Option.some.inj (hconverted.symm.trans hr)
  have hlo := ((near_iff ..).mp hnear).1
  exact absurd hlo (by decide)

end

end NmeaCoordinate

end Signpost
