/-
What the GPS library makes of a line (`gps_parse_data` in `gps.c`), and whether it
divides by zero. `to_decimal_degrees` divides by a hundred times the scale that minmea
gives a coordinate, a product of 32 bits: it is zero for an empty field, which has no
scale, and for a field with so many digits behind its point that the product wraps.
`scanFloat_scale` and `scanFloat_divisor` say both of the scanner's loop, and
`parsed_safely_iff` puts them together for a line.
-/
import Signpost.Minmea

namespace Signpost

open Lib

/-- `gps_data_t` -/
structure GpsData where
  day : UInt8
  month : UInt8
  year : UInt8
  hours : UInt8
  minutes : UInt8
  seconds : UInt8
  microseconds : UInt32
  latitude : UInt32
  longitude : UInt32
  fix : UInt8
  satelliteCount : UInt8

/-- What a variable of type `int16_t` has of a number. -/
def int16 (x : Int) : Int := x.bmod (2 ^ 16)

/-- `to_decimal_degrees`; `none` is a division by zero. -/
def toDecimalDegrees (coor : MinmeaFloat) : Option Int :=
  let divisor := int32 (coor.scale * 100)
  if divisor = 0 then none
  else
    let degrees := int16 (coor.value.tdiv divisor)
    let minutes := int32 (coor.value - int32 (degrees * divisor))
    let decimalDegrees := int32 (int32 (degrees * divisor) + int32 (minutes.tdiv 60 * 100))
    some (if coor.scale = 100000 then decimalDegrees.tdiv 10
      else if coor.scale = 1000 then int32 (decimalDegrees * 10)
      else decimalDegrees)

/-- `gps_parse_data`: the data then, and whether it was updated; `none` is a division by
zero. -/
def gpsParseData (gpsData : GpsData) (line : Bytes) : Option (GpsData × Bool) :=
  match minmeaSentenceId line false with
  | .gsa =>
    match minmeaParseGsa line with
    | some frame =>
      some ({ gpsData with
        fix := UInt8.ofInt frame.fixType
        satelliteCount := UInt8.ofNat (frame.sats.filter (· ≠ 0)).length }, true)
    | none => some (gpsData, false)
  | .rmc =>
    match minmeaParseRmc line with
    | some frame =>
      (toDecimalDegrees frame.latitude).bind fun latitude =>
        (toDecimalDegrees frame.longitude).map fun longitude =>
          ({ gpsData with
            day := UInt8.ofInt frame.date.day
            month := UInt8.ofInt frame.date.month
            year := UInt8.ofInt frame.date.year
            hours := UInt8.ofInt frame.time.hours
            minutes := UInt8.ofInt frame.time.minutes
            seconds := UInt8.ofInt frame.time.seconds
            microseconds := UInt32.ofInt frame.time.microseconds
            latitude := UInt32.ofInt latitude
            longitude := UInt32.ofInt longitude }, true)
    | none => some (gpsData, false)
  | _ => some (gpsData, false)

/-! ## Fractional values -/

/-- Something of the value has been read. -/
def FloatScan.Begun (st : FloatScan) : Prop := -1 ≤ st.value ∧ (st.sign ≠ 0 ∨ 0 ≤ st.value ∨ st.scale ≠ 0)

/-- There is a character other than a space. -/
def Written (field : Bytes) : Prop := ∃ c ∈ field.takeWhile minmeaIsfield, c ≠ chr ' '

section
variable {c : UInt8} {field : Bytes} {st st' : FloatScan} {f : MinmeaFloat}

theorem digit_bounds (h : signpostIsdigit c = true) : 48 ≤ c.toNat ∧ c.toNat ≤ 57 := by
  obtain ⟨hle, hge⟩ := (Bool.and_eq_true _ _).mp h
  exact ⟨UInt8.le_iff_toNat_le.mp (of_decide_eq_true hle), UInt8.le_iff_toNat_le.mp (of_decide_eq_true hge)⟩

theorem ne_space_of_digit (h : signpostIsdigit c = true) : c ≠ chr ' ' := by
  rintro rfl
  cases h

/-- What a character does: it ends the value, or it is a space before it, or the value
has begun. -/
theorem scanFloatLoop_cons (h : scanFloatLoop (c :: field) st = some st') (hle : -1 ≤ st.value) :
    (minmeaIsfield c = false ∧ st' = st) ∨
    (minmeaIsfield c = true ∧ c = chr ' ' ∧ scanFloatLoop field st = some st') ∨
    (minmeaIsfield c = true ∧ c ≠ chr ' ' ∧ ∃ st₁ : FloatScan, st₁.Begun ∧
      (st' = st₁ ∨ scanFloatLoop field st₁ = some st')) := by
  rw [scanFloatLoop] at h
  split at h
  · next hfield => exact .inl ⟨by simpa using hfield, (Option.some.inj h).symm⟩
  · next hfield =>
    refine .inr ?_
    have hfield : minmeaIsfield c = true := by simpa using hfield
    split at h
    · next hsign =>
      refine .inr ⟨hfield, ?_, { st with sign := 1 }, ⟨hle, .inl Int.one_ne_zero⟩, .inr h⟩
      rw [hsign.1]
      decide
    · split at h
      · next hsign =>
        refine .inr ⟨hfield, ?_, { st with sign := -1 }, ⟨hle, .inl (Int.neg_ne_zero.mpr Int.one_ne_zero)⟩, .inr h⟩
        rw [hsign.1]
        decide
      · split at h
        · next hdigit =>
          obtain ⟨hlo, hhi⟩ := digit_bounds hdigit
          refine .inr ⟨hfield, ne_space_of_digit hdigit, ?_⟩
          obtain ⟨value, hvalue⟩ : ∃ value, value = if st.value = -1 then 0 else st.value := ⟨_, rfl⟩
          have hpos : 0 ≤ value := by
            rw [hvalue]
            split <;> omega
          simp only [← hvalue] at h
          split at h
          · split at h
            · exact ⟨{ st with value }, ⟨Int.le_trans (by decide) hpos, .inr (.inl hpos)⟩,
                .inl (Option.some.inj h).symm⟩
            · cases h
          · have hnext : 0 ≤ 10 * value + ((c.toNat : Int) - 48) := by omega
            exact ⟨_, ⟨Int.le_trans (by decide) hnext, .inr (.inl hnext)⟩, .inr h⟩
        · split at h
          · next hpoint =>
            refine .inr ⟨hfield, ?_, { st with scale := 1 }, ⟨hle, .inr (.inr Int.one_ne_zero)⟩, .inr h⟩
            rw [hpoint.1]
            decide
          · split at h
            · next hspace =>
              split at h
              · cases h
              · exact .inl ⟨hfield, hspace, h⟩
            · cases h

theorem scanFloatLoop_begun (hbegun : st.Begun) (h : scanFloatLoop field st = some st') : st'.Begun := by
  induction field generalizing st with
  | nil =>
    cases h
    exact hbegun
  | cons c field ih =>
    rcases scanFloatLoop_cons h hbegun.1 with ⟨-, rfl⟩ | ⟨-, -, hrest⟩ | ⟨-, -, st₁, hbegun₁, rfl | hrest⟩
    · exact hbegun
    · exact ih hbegun hrest
    · exact hbegun₁
    · exact ih hbegun₁ hrest

theorem scanFloatLoop_written (h : scanFloatLoop field ⟨0, -1, 0⟩ = some st') :
    (Written field ∧ st'.Begun) ∨ (¬ Written field ∧ st' = ⟨0, -1, 0⟩) := by
  induction field with
  | nil =>
    cases h
    exact .inr ⟨by simp [Written], rfl⟩
  | cons c field ih =>
    rcases scanFloatLoop_cons h (Int.le_refl _) with
      ⟨hend, rfl⟩ | ⟨hfield, rfl, hrest⟩ | ⟨hfield, hne, st₁, hbegun, hst⟩
    · exact .inr ⟨by simp [Written, hend], rfl⟩
    · have hwritten : Written (chr ' ' :: field) ↔ Written field := by simp [Written, hfield]
      rw [hwritten]
      exact ih hrest
    · refine .inl ⟨⟨c, ?_, hne⟩, ?_⟩
      · rw [List.takeWhile_cons_of_pos hfield]
        exact List.mem_cons_self
      · rcases hst with rfl | hrest
        · exact hbegun
        · exact scanFloatLoop_begun hbegun hrest

theorem scanFloat_scale (h : scanFloat (some field) = some f) : f.scale ≠ 0 ↔ Written field := by
  obtain ⟨st, hloop, h⟩ := Option.bind_eq_some_iff.mp h
  split at h
  · cases h
  · next hnone =>
    cases h
    rcases scanFloatLoop_written hloop with ⟨hwritten, hle, hbegun⟩ | ⟨hblank, rfl⟩
    · refine iff_of_true ?_ hwritten
      have hvalue : st.value ≠ -1 := fun hvalue => by
        rcases hbegun with hsign | hpos | hscale
        · exact hnone ⟨.inl hsign, hvalue⟩
        · omega
        · exact hnone ⟨.inr hscale, hvalue⟩
      simp only [if_neg hvalue]
      split
      · decide
      · assumption
    · exact iff_of_false (by simp) hblank

end

/-! ## Scales -/

/-- The part of a field that the scanner reads: up to the first digit for which the number
has no room in 31 bits. -/
def digitsRead : Nat → Bytes → Bytes
  | _, [] => []
  | value, c :: field =>
    if !minmeaIsfield c then []
    else if signpostIsdigit c then
      let next := 10 * value + (c.toNat - 48)
      if next < 2 ^ 31 then c :: digitsRead next field else []
    else c :: digitsRead value field

/-- A character in the count of the digits behind the last point, which is `none` before
the first. -/
def countFraction (n : Option Nat) (c : UInt8) : Option Nat :=
  if c = chr '.' then some 0 else if signpostIsdigit c then n.map (· + 1) else n

/-- How many digits of a text stand behind its last point, if it has one. -/
def fractionDigits (text : Bytes) : Option Nat := text.foldl countFraction none

/-- The scale after so many digits behind a point. -/
def scaleOf : Option Nat → Int
  | none => 0
  | some k => int32 (10 ^ k)

theorem int32_mul (x y : Int) : int32 (int32 x * y) = int32 (x * y) := Int.bmod_mul_bmod

theorem int32_ten_pow (k : Nat) : int32 (10 ^ k) = 0 ↔ 32 ≤ k := by
  have hcoprime : Nat.Coprime (2 ^ 32) (5 ^ k) := Nat.Coprime.pow 32 k (by decide)
  have hsplit : 10 ^ k = 2 ^ k * 5 ^ k := by rw [← Nat.mul_pow]
  rw [int32, ← Int.dvd_iff_bmod_eq_zero]
  calc ((2 ^ 32 : Nat) : Int) ∣ 10 ^ k ↔ 2 ^ 32 ∣ 10 ^ k := by exact_mod_cast Int.natCast_dvd_natCast
    _ ↔ 2 ^ 32 ∣ 2 ^ k := by
      rw [hsplit]
      exact ⟨hcoprime.dvd_of_dvd_mul_right, fun h => Nat.dvd_mul_right_of_dvd h _⟩
    _ ↔ 32 ≤ k := Nat.pow_dvd_pow_iff_le_right (by decide)

theorem int32_hundred (k : Nat) : int32 (int32 (10 ^ k) * 100) = 0 ↔ 30 ≤ k := by
  have hpow : (10 : Int) ^ k * 100 = 10 ^ (k + 2) := by rw [Int.pow_add]; rfl
  rw [int32_mul, hpow, int32_ten_pow]
  omega

/-- A scale that has wrapped to zero stays there until the next point. -/
theorem scaleOf_succ (n : Option Nat) :
    scaleOf (n.map (· + 1)) = if scaleOf n ≠ 0 then int32 (10 * scaleOf n) else scaleOf n := by
  cases n with
  | none => rfl
  | some k =>
    rw [Option.map_some, scaleOf, scaleOf]
    split_ifs with hzero
    · rw [Int.mul_comm, int32_mul, Int.pow_succ]
    · rw [not_not] at hzero
      rw [hzero]
      exact (int32_ten_pow _).mpr (Nat.le_succ_of_le ((int32_ten_pow k).mp hzero))

section
variable {field : Bytes} {st st' : FloatScan} {f : MinmeaFloat} {value : Nat} {n : Option Nat}

theorem scanFloatLoop_scale (h : scanFloatLoop field st = some st')
    (hvalue : (value : Int) = if st.value = -1 then 0 else st.value) (hscale : st.scale = scaleOf n) :
    st'.scale = scaleOf ((digitsRead value field).foldl countFraction n) := by
  induction field generalizing st value n with
  | nil =>
    cases h
    exact hscale
  | cons c field ih =>
    rw [scanFloatLoop] at h
    rw [digitsRead]
    split at h
    · next hfield =>
      cases h
      rw [if_pos hfield]
      exact hscale
    · next hfield =>
      rw [if_neg hfield]
      split at h
      · next hsign =>
        obtain ⟨rfl, -, -⟩ := hsign
        exact ih h hvalue hscale
      · split at h
        · next hsign =>
          obtain ⟨rfl, -, -⟩ := hsign
          exact ih h hvalue hscale
        · split at h
          · next hdigit =>
            obtain ⟨hlo, hhi⟩ := digit_bounds hdigit
            have hpoint : c ≠ chr '.' := by
              rintro rfl
              cases hdigit
            rw [if_pos hdigit]
            simp only [← hvalue] at h
            split at h
            · next hroom =>
              rw [if_neg (by omega)]
              split at h
              · cases h
                exact hscale
              · cases h
            · next hroom =>
              rw [if_pos (by omega), List.foldl_cons, countFraction, if_neg hpoint, if_pos hdigit]
              refine ih h ?_ ?_
              · simp only
                rw [if_neg (by omega)]
                omega
              · rw [scaleOf_succ, ← hscale]
          · next hdigit =>
            rw [if_neg hdigit, List.foldl_cons, countFraction]
            split at h
            · next hpoint =>
              rw [if_pos hpoint.1]
              exact ih h hvalue rfl
            · split at h
              · next hspace =>
                split at h
                · cases h
                · rw [if_neg (by rw [hspace]; decide), if_neg hdigit]
                  exact ih h hvalue hscale
              · cases h

example : fractionDigits (digitsRead 0 (Controller.ofChars "000.0000000000000000000000000000004")) = some 31 := by
  decide +kernel

/-- The conversion divides by zero exactly if a hundred times the scale is zero in 32 bits. -/
theorem toDecimalDegrees_isSome (coor : MinmeaFloat) :
    (toDecimalDegrees coor).isSome = true ↔ int32 (coor.scale * 100) ≠ 0 := by
  by_cases hzero : int32 (coor.scale * 100) = 0
  · simp [toDecimalDegrees, hzero]
  · simp [toDecimalDegrees, hzero]

/-- A field that gives a coordinate to convert: something is written in it, and the digits
read behind its last point are not 30 or 31, which leave a scale that times a hundred is
zero in 32 bits. (With more, the scale itself has wrapped to zero, and the scanner takes
one instead.) -/
def Convertible (field : Bytes) : Prop :=
  Written field ∧ fractionDigits (digitsRead 0 field) ≠ some 30 ∧ fractionDigits (digitsRead 0 field) ≠ some 31

theorem scanFloat_divisor (h : scanFloat (some field) = some f) : int32 (f.scale * 100) ≠ 0 ↔ Convertible field := by
  have hwritten := scanFloat_scale h
  obtain ⟨st, hloop, h⟩ := Option.bind_eq_some_iff.mp h
  have hscale : st.scale = scaleOf (fractionDigits (digitsRead 0 field)) := scanFloatLoop_scale hloop rfl rfl
  rw [Convertible, ← hwritten]
  split at h
  · cases h
  · cases h
    by_cases hvalue : st.value = -1
    · simp only [if_pos hvalue]
      exact iff_of_false (fun h => h rfl) (fun h => h.1 rfl)
    · simp only [if_neg hvalue]
      cases hdigits : fractionDigits (digitsRead 0 field) with
      | none =>
        have hzero : st.scale = 0 := by rw [hscale, hdigits, scaleOf]
        rw [if_pos hzero]
        exact iff_of_true (by decide) ⟨by decide, nofun, nofun⟩
      | some k =>
        rw [hdigits, scaleOf] at hscale
        simp only [Ne, Option.some.injEq]
        by_cases hzero : st.scale = 0
        · have hle := (int32_ten_pow k).mp (hscale.symm.trans hzero)
          rw [if_pos hzero]
          exact iff_of_true (by decide) ⟨by decide, by omega, by omega⟩
        · have hlt := mt (int32_ten_pow k).mpr (hscale ▸ hzero)
          rw [if_neg hzero, hscale, int32_hundred]
          constructor
          · exact fun h => ⟨hscale ▸ hzero, by omega, by omega⟩
          · omega

end

/-! ## The fields of a line -/

/-- The field behind so many commas, and what follows it. -/
def lineField : Nat → Bytes → Option Bytes
  | 0, sentence => some sentence
  | n + 1, sentence => (nextField sentence).2.bind (lineField n)

/-- The field is there, and something is written in it. -/
def HasField (n : Nat) (line : Bytes) : Prop := ∃ field ∈ lineField n line, Written field

/-- The field is there, and it gives a coordinate to convert. -/
def HasCoordinate (n : Nat) (line : Bytes) : Prop := ∃ field ∈ lineField n line, Convertible field

section
variable {sentence : Bytes} {type : Char} {format : List Char} {field : Option Bytes} {outs : List Scanned} {n : Nat}

theorem nextField_some {rest : Bytes} (h : (nextField sentence).2 = some rest) : (nextField sentence).1 = rest := by
  simp only [nextField] at h ⊢
  split at h
  · next hcomma =>
    rw [if_pos hcomma]
    exact Option.some.inj h
  · cases h

theorem minmeaScanFrom_cons (htype : type ≠ ';')
    (h : minmeaScanFrom (type :: format) false sentence field = some outs) :
    ∃ s out outs', field = some s ∧ minmeaScanField type (some s) = some out ∧
      minmeaScanFrom format false (nextField sentence).1 (nextField sentence).2 = some outs' ∧ outs = out ++ outs' := by
  rw [minmeaScanFrom, if_neg htype] at h
  cases field with
  | none => cases h
  | some s =>
    obtain ⟨out, hout, h⟩ := Option.bind_eq_some_iff.mp h
    obtain ⟨outs', houts', rfl⟩ := Option.map_eq_some_iff.mp h
    exact ⟨s, out, outs', rfl, hout, houts', rfl⟩

theorem length_minmeaScanField {out : List Scanned} (htype : type ≠ '_')
    (h : minmeaScanField type field = some out) : out.length = 1 := by
  unfold minmeaScanField at h
  split at h
  case h_9 => exact absurd rfl htype
  case h_10 => cases h
  case h_1 | h_5 =>
    cases h
    rfl
  all_goals
    obtain ⟨x, -, rfl⟩ := Option.map_eq_some_iff.mp h
    rfl

theorem minmeaScanFrom_get (hplain : ∀ type ∈ format, type ≠ ';' ∧ type ≠ '_')
    (h : minmeaScanFrom format false sentence (some sentence) = some outs) (hn : n < format.length) :
    ∃ s x, lineField n sentence = some s ∧ minmeaScanField format[n] (some s) = some [x] ∧ outs[n]? = some x := by
  induction format generalizing sentence outs n with
  | nil => exact absurd hn (Nat.not_lt_zero n)
  | cons type format ih =>
    obtain ⟨hsemicolon, hignored⟩ := hplain type List.mem_cons_self
    obtain ⟨s, out, outs', heq, hout, hrest, rfl⟩ := minmeaScanFrom_cons hsemicolon h
    cases heq
    obtain ⟨x, rfl⟩ := List.length_eq_one_iff.mp (length_minmeaScanField hignored hout)
    cases n with
    | zero => exact ⟨sentence, x, rfl, hout, rfl⟩
    | succ n =>
      have hn' : n < format.length := Nat.lt_of_succ_lt_succ hn
      cases hnext : (nextField sentence).2 with
      | none =>
        rw [hnext] at hrest
        obtain ⟨type', format', rfl⟩ := List.exists_cons_of_length_pos (Nat.zero_lt_of_lt hn')
        have htype' := (hplain type' (List.mem_cons_of_mem _ List.mem_cons_self)).1
        obtain ⟨_, _, _, hfield, -⟩ := minmeaScanFrom_cons htype' hrest
        cases hfield
      | some rest =>
        rw [nextField_some hnext, hnext] at hrest
        obtain ⟨s, y, hs, hy, hget⟩ := ih (fun t ht => hplain t (List.mem_cons_of_mem _ ht)) hrest hn'
        refine ⟨s, y, ?_, hy, hget⟩
        rw [lineField, hnext]
        exact hs

end

/-! ## Lines -/

theorem minmeaParseRmc_scanned {line : Bytes} {frame : MinmeaSentenceRmc} (h : minmeaParseRmc line = some frame) :
    (∃ field ∈ lineField 3 line, ∃ f ∈ scanFloat (some field), f.scale = frame.latitude.scale) ∧
    (∃ field ∈ lineField 5 line, ∃ f ∈ scanFloat (some field), f.scale = frame.longitude.scale) := by
  unfold minmeaParseRmc at h
  split at h
  · next hscan =>
    split at h
    · have hall : ("tTcfdfdffDfd".toList.all fun type => type ≠ ';' ∧ type ≠ '_') = true := by decide
      have hplain : ∀ type ∈ "tTcfdfdffDfd".toList, type ≠ ';' ∧ type ≠ '_' :=
        fun type htype => of_decide_eq_true (List.all_eq_true.mp hall type htype)
      have hscanned : ∀ {n : Nat} {f : MinmeaFloat} {outs : List Scanned} (hn : n < "tTcfdfdffDfd".toList.length),
          minmeaScan line "tTcfdfdffDfd" = some outs → "tTcfdfdffDfd".toList[n] = 'f' → outs[n]? = some (.float f) →
          ∃ field ∈ lineField n line, scanFloat (some field) = some f := by
        intro n f outs hn hscan htype hout
        obtain ⟨field, x, hfield, hx, hget⟩ := minmeaScanFrom_get hplain hscan hn
        rw [htype] at hx
        obtain ⟨f', hf', hx⟩ := Option.map_eq_some_iff.mp hx
        obtain rfl : Scanned.float f' = x := (List.cons.inj hx).1
        obtain rfl : f' = f := Scanned.float.inj (Option.some.inj (hget.symm.trans hout))
        exact ⟨field, hfield, hf'⟩
      cases h
      obtain ⟨north, hnorth, hlatitude⟩ := hscanned (n := 3) (by decide) hscan (by decide) rfl
      obtain ⟨east, heast, hlongitude⟩ := hscanned (n := 5) (by decide) hscan (by decide) rfl
      exact ⟨⟨north, hnorth, _, hlatitude, rfl⟩, ⟨east, heast, _, hlongitude, rfl⟩⟩
    · cases h
  · cases h

section
variable {n : Nat} {line : Bytes} {coor : MinmeaFloat}

theorem scale_ne_zero_iff (h : ∃ field ∈ lineField n line, ∃ f ∈ scanFloat (some field), f.scale = coor.scale) :
    coor.scale ≠ 0 ↔ HasField n line := by
  obtain ⟨field, hfield, f, hf, hscale⟩ := h
  rw [← hscale, scanFloat_scale hf, HasField, Option.mem_def.mp hfield]
  simp

theorem toDecimalDegrees_isSome_iff
    (h : ∃ field ∈ lineField n line, ∃ f ∈ scanFloat (some field), f.scale = coor.scale) :
    (toDecimalDegrees coor).isSome = true ↔ HasCoordinate n line := by
  obtain ⟨field, hfield, f, hf, hscale⟩ := h
  rw [toDecimalDegrees_isSome, ← hscale, scanFloat_divisor hf, HasCoordinate, Option.mem_def.mp hfield]
  simp

theorem HasCoordinate.hasField (h : HasCoordinate n line) : HasField n line := by
  obtain ⟨field, hfield, hwritten, -⟩ := h
  exact ⟨field, hfield, hwritten⟩

end

/-- Coordinates that are converted have a scale, nothing is divided by zero, and a line
without one of them leaves the position. -/
structure ParsedSafely (gpsData : GpsData) (line : Bytes) : Prop where
  scale : minmeaSentenceId line false = .rmc → ∀ frame ∈ minmeaParseRmc line,
    frame.latitude.scale ≠ 0 ∧ frame.longitude.scale ≠ 0
  result : (gpsParseData gpsData line).isSome = true
  position : ¬ (HasField 3 line ∧ HasField 5 line) → ∃ r ∈ gpsParseData gpsData line,
    r.1.latitude = gpsData.latitude ∧ r.1.longitude = gpsData.longitude

theorem gpsParseData_kept {gpsData : GpsData} {line : Bytes}
    (h : minmeaSentenceId line false = .rmc → minmeaParseRmc line = none) :
    ∃ r ∈ gpsParseData gpsData line, r.1.latitude = gpsData.latitude ∧ r.1.longitude = gpsData.longitude := by
  unfold gpsParseData
  split
  · split <;> exact ⟨_, rfl, rfl, rfl⟩
  · next hid =>
    rw [h hid]
    exact ⟨_, rfl, rfl, rfl⟩
  · exact ⟨_, rfl, rfl, rfl⟩

theorem gpsParseData_isSome {gpsData : GpsData} {line : Bytes} {frame : MinmeaSentenceRmc}
    (hid : minmeaSentenceId line false = .rmc) (hframe : minmeaParseRmc line = some frame) :
    (gpsParseData gpsData line).isSome = true ↔
      (toDecimalDegrees frame.latitude).isSome = true ∧ (toDecimalDegrees frame.longitude).isSome = true := by
  simp only [gpsParseData, hid, hframe, Option.isSome_bind]
  cases toDecimalDegrees frame.latitude <;> simp

/-- A line is parsed safely exactly if it is not accepted as an RMC sentence or both its
coordinates can be converted. -/
theorem parsed_safely_iff (gpsData : GpsData) (line : Bytes) :
    ParsedSafely gpsData line ↔
      (minmeaSentenceId line false = .rmc → (minmeaParseRmc line).isSome = true →
        HasCoordinate 3 line ∧ HasCoordinate 5 line) := by
  constructor
  · intro h hid hparsed
    obtain ⟨frame, hframe⟩ := Option.isSome_iff_exists.mp hparsed
    obtain ⟨hlatitude, hlongitude⟩ := minmeaParseRmc_scanned hframe
    have hresult := (gpsParseData_isSome hid hframe).mp h.result
    exact ⟨(toDecimalDegrees_isSome_iff hlatitude).mp hresult.1, (toDecimalDegrees_isSome_iff hlongitude).mp hresult.2⟩
  · intro h
    by_cases hrmc : minmeaSentenceId line false = .rmc ∧ (minmeaParseRmc line).isSome = true
    · obtain ⟨hid, hparsed⟩ := hrmc
      obtain ⟨frame, hframe⟩ := Option.isSome_iff_exists.mp hparsed
      obtain ⟨hnorth, heast⟩ := minmeaParseRmc_scanned hframe
      obtain ⟨hlatitude, hlongitude⟩ := h hid hparsed
      refine ⟨fun _ frame' hframe' => ?_, ?_, fun hmissing => ?_⟩
      · obtain rfl : frame = frame' := Option.some.inj (hframe.symm.trans hframe')
        exact ⟨(scale_ne_zero_iff hnorth).mpr hlatitude.hasField, (scale_ne_zero_iff heast).mpr hlongitude.hasField⟩
      · exact (gpsParseData_isSome hid hframe).mpr
          ⟨(toDecimalDegrees_isSome_iff hnorth).mpr hlatitude, (toDecimalDegrees_isSome_iff heast).mpr hlongitude⟩
      · exact absurd ⟨hlatitude.hasField, hlongitude.hasField⟩ hmissing
    · have hnone : minmeaSentenceId line false = .rmc → minmeaParseRmc line = none := by
        intro hid
        cases hparsed : minmeaParseRmc line with
        | none => rfl
        | some frame => exact absurd ⟨hid, by rw [hparsed]; rfl⟩ hrmc
      have hkept : ∃ r ∈ gpsParseData gpsData line, r.1.latitude = gpsData.latitude ∧
          r.1.longitude = gpsData.longitude := gpsParseData_kept hnone
      have ⟨r, hr, _⟩ := hkept
      refine ⟨fun hid frame hframe => ?_, ?_, fun _ => hkept⟩
      · rw [hnone hid] at hframe
        cases hframe
      · rw [Option.mem_def.mp hr]
        rfl

section

/-- A sentence as it comes without a fix: the coordinates are empty. -/
def noFixLine : Bytes := Controller.ofChars "$GPRMC,081836.000,V,,,,,0.00,0.00,130998,,,N*43"

/-- There is no scale to divide by. -/
theorem no_fix_divides : ∃ frame, minmeaSentenceId noFixLine false = .rmc ∧ minmeaParseRmc noFixLine = some frame ∧
    frame.latitude = ⟨0, 0⟩ ∧ toDecimalDegrees frame.latitude = none ∧
      ∀ gpsData, ¬ ParsedSafely gpsData noFixLine := by
  have hid : minmeaSentenceId noFixLine false = .rmc := by decide +kernel
  have hparsed : (minmeaParseRmc noFixLine).map MinmeaSentenceRmc.latitude = some ⟨0, 0⟩ := by decide +kernel
  obtain ⟨frame, hframe, hlatitude⟩ := Option.map_eq_some_iff.mp hparsed
  refine ⟨frame, hid, hframe, hlatitude, ?_, fun gpsData h => ?_⟩
  · rw [hlatitude]
    rfl
  · have hscale := (h.scale hid frame hframe).1
    rw [hlatitude] at hscale
    exact hscale rfl

end

end Signpost
