/-
NMEA sentences as a receiver writes them, and what the parser makes of them: of each
field what was written, whatever follows it in the sentence.

A field carries its text, the letter of the format that reads it and what is
read, with the proof of that as its own. So a sentence is a list of fields, and
what the scanner makes of it is a lemma about lists.
-/
import Mathlib.Algebra.Order.BigOperators.Group.List
import Signpost.GpsDegrees
import Signpost.Lib.Calendar

namespace Signpost

open Lib Calendar

/-! ## Fields -/

/-- What is behind a field: the next one, or the checksum. -/
def Separator (c : UInt8) : Prop := c = chr ',' ∨ c = chr '*'

/-- A field as it is written, and what the scanner stores for it. -/
structure NmeaField where
  text : Bytes
  type : Char
  scanned : Scanned
  plain : ∀ c ∈ text, minmeaIsfield c = true
  /-- Only a sentence begins with a dollar. -/
  dollar : type ≠ 't' → chr '$' ∉ text
  type_ne : type ≠ ';'
  reads : ∀ c, Separator c → ∀ rest, minmeaScanField type (some (text ++ c :: rest)) = some [scanned]

def commas (fields : List NmeaField) : Bytes := fields.flatMap fun f => chr ',' :: f.text

section
variable {c : UInt8} {text rest : Bytes} {fields : List NmeaField} {n : Nat}

theorem commas_append (fields more : List NmeaField) : commas (fields ++ more) = commas fields ++ commas more :=
  List.flatMap_append

theorem Separator.isfield (h : Separator c) : minmeaIsfield c = false := by
  rcases h with rfl | rfl <;> rfl

theorem Separator.isdigit (h : Separator c) : signpostIsdigit c = false := by
  rcases h with rfl | rfl <;> rfl

theorem mem_commas (h : c ∈ commas fields) : c = chr ',' ∨ ∃ f ∈ fields, c ∈ f.text := by
  obtain ⟨f, hf, hc⟩ := List.mem_flatMap.mp h
  exact (List.mem_cons.mp hc).imp_right fun hc => ⟨f, hf, hc⟩

theorem length_commas (fields : List NmeaField) : (commas fields).length =
    (fields.map fun f => f.text.length + 1).sum := by
  rw [commas, List.length_flatMap]
  rfl

theorem length_commas_le (h : ∀ f ∈ fields, f.text.length ≤ n) : (commas fields).length ≤ fields.length * (n + 1) := by
  rw [length_commas, ← List.length_map fun f : NmeaField => f.text.length + 1]
  refine List.sum_le_card_nsmul _ _ fun k hk => ?_
  obtain ⟨f, hf, rfl⟩ := List.mem_map.mp hk
  exact Nat.succ_le_succ (h f hf)

theorem length_le_commas (fields : List NmeaField) : fields.length ≤ (commas fields).length := by
  rw [length_commas, ← List.length_map fun f : NmeaField => f.text.length + 1]
  refine List.length_le_sum_of_one_le _ fun k hk => ?_
  obtain ⟨f, -, rfl⟩ := List.mem_map.mp hk
  exact Nat.succ_pos _

theorem nextField_append (htext : ∀ c ∈ text, minmeaIsfield c = true) (rest : Bytes) :
    nextField (text ++ chr ',' :: rest) = (rest, some rest) := by
  have hrest : (text ++ chr ',' :: rest).dropWhile minmeaIsfield = chr ',' :: rest := by
    rw [List.dropWhile_append_of_pos htext]
    rfl
  rw [nextField, hrest]
  rfl

theorem exists_separator (more : List NmeaField) (rest : Bytes) :
    ∃ c, Separator c ∧ ∃ rest', commas more ++ chr '*' :: rest = c :: rest' := by
  cases more with
  | nil => exact ⟨_, .inr rfl, rest, rfl⟩
  | cons f more => exact ⟨_, .inl rfl, _, rfl⟩

theorem minmeaScanFrom_fields (f : NmeaField) (fields more : List NmeaField) (rest : Bytes) :
    minmeaScanFrom ((f :: fields).map NmeaField.type) false (f.text ++ (commas (fields ++ more) ++ chr '*' :: rest))
        (some (f.text ++ (commas (fields ++ more) ++ chr '*' :: rest))) =
      some ((f :: fields).map NmeaField.scanned) := by
  induction fields generalizing f with
  | nil =>
    obtain ⟨c, hc, rest', hrest⟩ := exists_separator more rest
    rw [List.nil_append, hrest, List.map_singleton, minmeaScanFrom, if_neg f.type_ne, f.reads c hc]
    rfl
  | cons g fields ih =>
    have hcommas : commas (g :: fields ++ more) ++ chr '*' :: rest =
        chr ',' :: (g.text ++ (commas (fields ++ more) ++ chr '*' :: rest)) := by
      rw [List.cons_append, commas, List.flatMap_cons, List.cons_append, List.cons_append, List.append_assoc, commas]
    rw [hcommas, List.map_cons, minmeaScanFrom, if_neg f.type_ne, f.reads _ (.inl rfl), Option.bind_some,
      nextField_append f.plain]
    simp only [Option.isNone_some, Bool.false_and, Bool.false_eq_true, if_false, ih g, Option.map_some]
    rfl

end

/-! ## Digits -/

theorem forall_mem_of_all {p : UInt8 → Prop} [DecidablePred p] {bytes : Bytes} (h : (bytes.all fun c => p c) = true) :
    ∀ c ∈ bytes, p c :=
  fun c hc => of_decide_eq_true (List.all_eq_true.mp h c hc)

def digit (n : Nat) : UInt8 := UInt8.ofNat (48 + n)

def twoDigits (n : Nat) : Bytes := [digit (n / 10), digit (n % 10)]

theorem toNat_digit {n : Nat} (h : n < 10) : (digit n).toNat = 48 + n :=
  UInt8.toNat_ofNat_of_lt' (Nat.lt_of_lt_of_le (Nat.add_lt_add_left h 48) (by decide))

theorem isdigit_digit {n : Nat} (h : n < 10) : signpostIsdigit (digit n) = true := by
  have hdigit := toNat_digit h
  simp only [signpostIsdigit, Bool.and_eq_true, decide_eq_true_eq, UInt8.le_iff_toNat_le, hdigit]
  exact ⟨Nat.le_add_right 48 n, by change 48 + n ≤ 57; omega⟩

theorem isdigit_twoDigits {n : Nat} (h : n < 100) : ∀ c ∈ twoDigits n, signpostIsdigit c = true := by
  have htens := isdigit_digit (n := n / 10) (by omega)
  have hones := isdigit_digit (n := n % 10) (by omega)
  simp only [twoDigits, List.forall_mem_cons]
  exact ⟨htens, hones, fun _ hc => nomatch hc⟩

theorem digitsValue_digit {n : Nat} (h : n < 10) : digitsValue [digit n] = n := by
  rw [digitsValue, List.foldl_cons, List.foldl_nil, toNat_digit h, Nat.mul_zero, Nat.zero_add, Nat.add_sub_cancel_left]

theorem digitsValue_twoDigits {n : Nat} (h : n < 100) : digitsValue (twoDigits n) = n := by
  have htens := toNat_digit (n := n / 10) (by omega)
  have hones := toNat_digit (n := n % 10) (by omega)
  simp only [digitsValue, twoDigits, List.foldl_cons, List.foldl_nil, htens, hones]
  omega

theorem dollar_of_digits {ds : Bytes} (h : ∀ c ∈ ds, signpostIsdigit c = true) : chr '$' ∉ ds :=
  fun hmem => absurd (h _ hmem) (by decide)

/-! ## Fractional numbers -/

/-- Digits, and more of them behind a point. -/
def decimalText (whole fraction : Bytes) : Bytes := whole ++ if fraction = [] then [] else chr '.' :: fraction

section
variable {c : UInt8} {text whole fraction : Bytes}

theorem isfield_decimalText (h : ∀ d ∈ whole ++ fraction, signpostIsdigit d = true) :
    ∀ d ∈ decimalText whole fraction, minmeaIsfield d = true ∧ d ≠ chr '$' := by
  have hdigit : ∀ d ∈ whole ++ fraction, minmeaIsfield d = true ∧ d ≠ chr '$' := fun d hd =>
    ⟨isfield_of_digit (h d hd), fun heq => dollar_of_digits h (heq ▸ hd)⟩
  intro d hd
  rcases List.mem_append.mp hd with hd | hd
  · exact hdigit d (List.mem_append_left _ hd)
  · split at hd
    · cases hd
    · rcases List.mem_cons.mp hd with rfl | hd
      · exact ⟨rfl, by decide⟩
      · exact hdigit d (List.mem_append_right _ hd)

theorem length_decimalText_le (whole fraction : Bytes) :
    (decimalText whole fraction).length ≤ whole.length + fraction.length + 1 := by
  rw [decimalText, List.length_append]
  split
  · exact Nat.le_add_right_of_le (Nat.le_add_right _ _)
  · exact Nat.le_of_eq (by rw [List.length_cons, Nat.add_assoc])

theorem scanFloatLoop_append (hc : Separator c) (text rest : Bytes) (st : FloatScan) :
    scanFloatLoop (text ++ c :: rest) st = scanFloatLoop text st := by
  induction text generalizing st with
  | nil => exact if_pos (by rw [hc.isfield]; rfl)
  | cons d text ih =>
    rw [List.cons_append, scanFloatLoop, scanFloatLoop]
    simp only [ih]

theorem scanFloat_decimalText (hdigits : ∀ d ∈ whole ++ fraction, signpostIsdigit d = true) (hne : whole ≠ [])
    (hfits : digitsValue whole * 10 ^ fraction.length + digitsValue fraction < 2 ^ 31)
    (hscale : 10 ^ fraction.length < 2 ^ 31) (hc : Separator c) (rest : Bytes) :
    scanFloat (some (decimalText whole fraction ++ c :: rest)) =
      some ⟨(digitsValue whole * 10 ^ fraction.length + digitsValue fraction : Nat), (10 ^ fraction.length : Nat)⟩ := by
  have hwhole : ∀ d ∈ whole, signpostIsdigit d = true := fun d hd => hdigits d (List.mem_append_left _ hd)
  have hfraction : ∀ d ∈ fraction, signpostIsdigit d = true := fun d hd => hdigits d (List.mem_append_right _ hd)
  have hpow : 1 ≤ 10 ^ fraction.length := Nat.one_le_pow _ _ (by decide)
  have hstart := scanFloatLoop_whole hwhole hne
    (Nat.lt_of_le_of_lt (Nat.le_trans (Nat.le_mul_of_pos_right _ hpow) (Nat.le_add_right _ _)) hfits)
  by_cases hnil : fraction = []
  · have hloop : scanFloatLoop (decimalText whole fraction ++ c :: rest) ⟨0, -1, 0⟩ =
        some ⟨0, digitsValue whole, (0 : Nat)⟩ := by
      rw [scanFloatLoop_append hc, decimalText, if_pos hnil]
      exact hstart []
    rw [NmeaCoordinate.scanFloat_of_loop hloop, hnil]
    simp [digitsValue]
  · have hbehind := scanFloatLoop_digits hfraction hfits
      (Nat.lt_of_le_of_lt (Nat.le_of_eq (Nat.one_mul _)) hscale) []
    rw [List.append_nil, Nat.one_mul] at hbehind
    have hloop : scanFloatLoop (decimalText whole fraction ++ c :: rest) ⟨0, -1, 0⟩ =
        some ⟨0, (digitsValue whole * 10 ^ fraction.length + digitsValue fraction : Nat),
          (10 ^ fraction.length : Nat)⟩ := by
      rw [scanFloatLoop_append hc, decimalText, if_neg hnil, hstart, NmeaCoordinate.scanFloatLoop_fraction, hbehind]
      rfl
    rw [NmeaCoordinate.scanFloat_of_loop hloop, if_neg (Nat.ne_of_gt hpow)]

end

/-! ## Other fields -/

def threeDigits (n : Nat) : Bytes := [digit (n / 100), digit (n / 10 % 10), digit (n % 10)]

theorem isdigit_threeDigits {n : Nat} (h : n < 1000) : ∀ c ∈ threeDigits n, signpostIsdigit c = true := by
  have hhundreds := isdigit_digit (n := n / 100) (by omega)
  have htens := isdigit_digit (n := n / 10 % 10) (by omega)
  have hones := isdigit_digit (n := n % 10) (by omega)
  simp only [threeDigits, List.forall_mem_cons]
  exact ⟨hhundreds, htens, hones, fun _ hc => nomatch hc⟩

theorem digitsValue_threeDigits {n : Nat} (h : n < 1000) : digitsValue (threeDigits n) = n := by
  have hhundreds := toNat_digit (n := n / 100) (by omega)
  have htens := toNat_digit (n := n / 10 % 10) (by omega)
  have hones := toNat_digit (n := n % 10) (by omega)
  simp only [digitsValue, threeDigits, List.foldl_cons, List.foldl_nil, hhundreds, htens, hones]
  omega

section
variable {c : UInt8} {ds : Bytes}

theorem scanTime_digits {d₀ d₁ d₂ d₃ d₄ d₅ f₀ f₁ f₂ : UInt8}
    (h : ∀ d ∈ [d₀, d₁, d₂, d₃, d₄, d₅, f₀, f₁, f₂], signpostIsdigit d = true) (hc : Separator c) (rest : Bytes) :
    scanTime (some ([d₀, d₁, d₂, d₃, d₄, d₅, chr '.', f₀, f₁, f₂] ++ c :: rest)) =
      some ⟨digitsValue [d₀, d₁], digitsValue [d₂, d₃], digitsValue [d₄, d₅], digitsValue [f₀, f₁, f₂] * 1000⟩ := by
  simp only [List.forall_mem_cons] at h
  obtain ⟨h₀, h₁, h₂, h₃, h₄, h₅, hf₀, hf₁, hf₂, -⟩ := h
  have hfraction : ([f₀, f₁, f₂, c] ++ rest.take 2).takeWhile signpostIsdigit = [f₀, f₁, f₂] := by
    simp [hf₀, hf₁, hf₂, hc.isdigit]
  have hsix : ((List.range 6).all fun f =>
      signpostIsdigit (([d₀, d₁, d₂, d₃, d₄, d₅, chr '.', f₀, f₁, f₂] ++ c :: rest).getD f 0)) = true := by
    simp [List.range_succ, h₀, h₁, h₂, h₃, h₄, h₅]
  have hbehind : ((([d₀, d₁, d₂, d₃, d₄, d₅, chr '.', f₀, f₁, f₂] ++ c :: rest).drop 7).take 6).takeWhile
      signpostIsdigit = [f₀, f₁, f₂] := hfraction
  simp only [scanTime, Option.getD_some, hsix, hbehind, if_true]
  exact if_pos (isfield_of_digit h₀)

theorem scanDate_digits {d₀ d₁ d₂ d₃ d₄ d₅ : UInt8} (h : ∀ d ∈ [d₀, d₁, d₂, d₃, d₄, d₅], signpostIsdigit d = true)
    (rest : Bytes) :
    scanDate (some ([d₀, d₁, d₂, d₃, d₄, d₅] ++ rest)) =
      some ⟨digitsValue [d₀, d₁], digitsValue [d₂, d₃], digitsValue [d₄, d₅]⟩ := by
  simp only [List.forall_mem_cons] at h
  obtain ⟨h₀, h₁, h₂, h₃, h₄, h₅, -⟩ := h
  simp [scanDate, List.range_succ, isfield_of_digit h₀, h₀, h₁, h₂, h₃, h₄, h₅]

theorem isspace_of_digit (h : signpostIsdigit c = true) : isspace c = false := by
  obtain ⟨hlo, -⟩ := digit_bounds h
  have hhigh : ¬ c ≤ 13 := fun hle =>
    absurd (UInt8.le_iff_toNat_le.mp hle) (Nat.not_le.mpr (Nat.lt_of_lt_of_le (by decide) hlo))
  simp [isspace, ne_space_of_digit h, hhigh]

theorem scanInteger_digits (h : ∀ d ∈ ds, signpostIsdigit d = true) (hne : ds ≠ []) (hfits : digitsValue ds < 2 ^ 31)
    (hc : Separator c) (rest : Bytes) : scanInteger (some (ds ++ c :: rest)) = some (digitsValue ds : Int) := by
  obtain ⟨d, es, rfl⟩ := List.exists_cons_of_ne_nil hne
  have hd := h d List.mem_cons_self
  have hspace : (d :: es ++ c :: rest).dropWhile isspace = d :: es ++ c :: rest :=
    List.dropWhile_cons_of_neg (by rw [isspace_of_digit hd]; exact Bool.false_ne_true)
  have hdigits : (d :: es ++ c :: rest).takeWhile signpostIsdigit = d :: es := by
    rw [List.takeWhile_append_of_pos h, List.takeWhile_cons_of_neg (by rw [hc.isdigit]; exact Bool.false_ne_true),
      List.append_nil]
  have hminus : d ≠ chr '-' := by
    rintro rfl
    cases hd
  have hplus : d ≠ chr '+' := by
    rintro rfl
    cases hd
  have hvalue : max (-2 ^ 31) (min (digitsValue (d :: es) : Int) (2 ^ 31 - 1)) = digitsValue (d :: es) := by omega
  have hstrtol : strtol (d :: es ++ c :: rest) = ((digitsValue (d :: es) : Int), c :: rest) := by
    have hhead : (d :: es ++ c :: rest).headD 0 = d := rfl
    simp only [strtol, hspace, hhead, hminus, hplus, or_self, if_false, hdigits, hvalue, List.drop_left]
    exact if_neg (List.cons_ne_nil d es)
  rw [scanInteger, hstrtol]
  exact if_neg (by rw [List.headD_cons, hc.isfield]; exact Bool.false_ne_true)

theorem scanInteger_blank (hc : Separator c) (rest : Bytes) : scanInteger (some (c :: rest)) = some 0 := by
  rcases hc with rfl | rfl <;> rfl

theorem scanFloat_blank (hc : Separator c) (rest : Bytes) : scanFloat (some (c :: rest)) = some ⟨0, 0⟩ := by
  rcases hc with rfl | rfl <;> rfl

theorem scanDirection_blank (hc : Separator c) (rest : Bytes) : scanDirection (some (c :: rest)) = some 0 := by
  rcases hc with rfl | rfl <;> rfl

end

/-! ## Kinds of fields -/

structure NmeaNumber where
  whole : Bytes
  fraction : Bytes
  whole_ne : whole ≠ []
  digits : ∀ d ∈ whole ++ fraction, signpostIsdigit d = true
  length_le : whole.length + fraction.length ≤ 5

structure Satellite where
  digits : Bytes
  isdigit : ∀ d ∈ digits, signpostIsdigit d = true
  length_le : digits.length ≤ 3
  ne_zero : digitsValue digits ≠ 0

theorem NmeaNumber.fits (n : NmeaNumber) :
    digitsValue n.whole * 10 ^ n.fraction.length + digitsValue n.fraction < 2 ^ 31 ∧
      10 ^ n.fraction.length < 2 ^ 31 := by
  have hvalue := digitsValue_lt n.digits
  rw [digitsValue_append, List.length_append] at hvalue
  have hbound : 10 ^ (n.whole.length + n.fraction.length) ≤ 10 ^ 5 := Nat.pow_le_pow_right (by decide) n.length_le
  have hscale : 10 ^ n.fraction.length ≤ 10 ^ (n.whole.length + n.fraction.length) :=
    Nat.pow_le_pow_right (by decide) (Nat.le_add_left _ _)
  omega

theorem Satellite.fits (s : Satellite) : digitsValue s.digits < 2 ^ 31 :=
  Nat.lt_of_lt_of_le (digitsValue_lt s.isdigit)
    (Nat.le_trans (Nat.pow_le_pow_right (by decide) s.length_le) (by decide))

theorem Satellite.digits_ne (s : Satellite) : s.digits ≠ [] := fun hnil => s.ne_zero (by rw [hnil]; rfl)

structure Letter where
  char : UInt8
  capital : chr 'A' ≤ char ∧ char ≤ chr 'Z'

inductive Compass
  | north
  | south
  | east
  | west

def Compass.letter : Compass → UInt8
  | .north => chr 'N'
  | .south => chr 'S'
  | .east => chr 'E'
  | .west => chr 'W'

def Compass.sign : Compass → Int
  | .north | .east => 1
  | .south | .west => -1

theorem Letter.bare (l : Letter) : ∀ c ∈ [l.char], minmeaIsfield c = true ∧ c ≠ chr '$' := by
  have hlow := UInt8.le_iff_toNat_le.mp l.capital.1
  have hhigh := UInt8.le_iff_toNat_le.mp l.capital.2
  have hne : ∀ c : UInt8, c.toNat < 65 → l.char ≠ c := fun c hc heq =>
    absurd (heq ▸ hlow) (Nat.not_le.mpr hc)
  have hprint : signpostIsprint l.char = true := by
    simp only [signpostIsprint, Bool.and_eq_true, decide_eq_true_eq]
    exact ⟨UInt8.lt_iff_toNat_lt.mpr (Nat.lt_of_lt_of_le (by decide) hlow),
      UInt8.lt_iff_toNat_lt.mpr (Nat.lt_of_le_of_lt hhigh (by decide))⟩
  intro c hc
  obtain rfl := List.mem_singleton.mp hc
  refine ⟨?_, hne _ (by decide)⟩
  simp [minmeaIsfield, hprint, hne (chr ',') (by decide), hne (chr '*') (by decide)]

namespace NmeaField

def bare (text : Bytes) (type : Char) (scanned : Scanned) (plain : ∀ c ∈ text, minmeaIsfield c = true ∧ c ≠ chr '$')
    (type_ne : type ≠ ';')
    (reads : ∀ c, Separator c → ∀ rest, minmeaScanField type (some (text ++ c :: rest)) = some [scanned]) :
    NmeaField where
  text
  type
  scanned
  plain := fun c hc => (plain c hc).1
  dollar := fun _ hmem => (plain _ hmem).2 rfl
  type_ne
  reads

theorem bare_of_digits {ds : Bytes} (h : ∀ c ∈ ds, signpostIsdigit c = true) :
    ∀ c ∈ ds, minmeaIsfield c = true ∧ c ≠ chr '$' :=
  fun c hc => ⟨isfield_of_digit (h c hc), fun heq => dollar_of_digits h (heq ▸ hc)⟩

theorem toNat_lt_hundred {x bound : Int} (h : 0 ≤ x ∧ x ≤ bound) (hbound : bound < 100) : x.toNat < 100 := by omega

def clock (m : Moment) : Bytes := twoDigits m.hour.toNat ++ twoDigits m.minute.toNat ++ twoDigits m.second.toNat

def calendar (m : Moment) : Bytes := twoDigits m.day.toNat ++ twoDigits m.month.toNat ++ twoDigits (m.year - 2000).toNat

theorem isdigit_append {ds es : Bytes} (hds : ∀ c ∈ ds, signpostIsdigit c = true)
    (hes : ∀ c ∈ es, signpostIsdigit c = true) : ∀ c ∈ ds ++ es, signpostIsdigit c = true :=
  fun c hc => (List.mem_append.mp hc).elim (hds c) (hes c)

theorem isdigit_clock {m : Moment} (hm : m.Valid) : ∀ c ∈ clock m, signpostIsdigit c = true :=
  isdigit_append
    (isdigit_append (isdigit_twoDigits (toNat_lt_hundred hm.hour (by decide)))
      (isdigit_twoDigits (toNat_lt_hundred hm.minute (by decide))))
    (isdigit_twoDigits (toNat_lt_hundred hm.second (by decide)))

theorem toNat_day_lt {m : Moment} (hm : m.Valid) : m.day.toNat < 100 := by
  obtain ⟨hlow, hhigh⟩ := hm.day
  have hmonth : monthLength m.year m.month ≤ 31 := by
    unfold monthLength
    split_ifs <;> decide
  omega

theorem isdigit_calendar {m : Moment} (hm : m.Valid) (hyear : 2000 ≤ m.year ∧ m.year < 2100) :
    ∀ c ∈ calendar m, signpostIsdigit c = true :=
  isdigit_append
    (isdigit_append (isdigit_twoDigits (toNat_day_lt hm))
      (isdigit_twoDigits (toNat_lt_hundred ⟨by have := hm.month.1; omega, hm.month.2⟩ (by decide))))
    (isdigit_twoDigits (by omega))

theorem scanTime_clock {m : Moment} (hm : m.Valid) {ms : Nat} (hms : ms < 1000) {c : UInt8} (hc : Separator c)
    (rest : Bytes) : scanTime (some (decimalText (clock m) (threeDigits ms) ++ c :: rest)) =
      some ⟨m.hour, m.minute, m.second, ms * 1000⟩ := by
  have hdigits : ∀ d ∈ clock m ++ threeDigits ms, signpostIsdigit d = true :=
    isdigit_append (isdigit_clock hm) (isdigit_threeDigits hms)
  have hvalue : ∀ {x bound : Int}, 0 ≤ x ∧ x ≤ bound → bound < 100 → (digitsValue (twoDigits x.toNat) : Int) = x :=
    fun h hbound => by rw [digitsValue_twoDigits (toNat_lt_hundred h hbound), Int.toNat_of_nonneg h.1]
  have hread := scanTime_digits hdigits hc rest
  have hhour := hvalue hm.hour (by decide)
  have hminute := hvalue hm.minute (by decide)
  have hsecond := hvalue hm.second (by decide)
  have hfraction : (digitsValue (threeDigits ms) : Int) = ms := congrArg _ (digitsValue_threeDigits hms)
  rw [twoDigits] at hhour hminute hsecond
  rw [threeDigits] at hfraction
  rw [hhour, hminute, hsecond, hfraction] at hread
  exact hread

theorem scanDate_calendar {m : Moment} (hm : m.Valid) (hyear : 2000 ≤ m.year ∧ m.year < 2100) (rest : Bytes) :
    scanDate (some (calendar m ++ rest)) = some ⟨m.day, m.month, m.year - 2000⟩ := by
  have hvalue : ∀ {x : Int}, 0 ≤ x → x.toNat < 100 → (digitsValue (twoDigits x.toNat) : Int) = x :=
    fun h hlt => by rw [digitsValue_twoDigits hlt, Int.toNat_of_nonneg h]
  have hread := scanDate_digits (isdigit_calendar hm hyear) rest
  have hmonth := hm.month
  have hday := hvalue (by have := hm.day.1; omega) (toNat_day_lt hm)
  have hmonth := hvalue (by omega) (toNat_lt_hundred ⟨by omega, hmonth.2⟩ (by decide))
  have hyear := hvalue (x := m.year - 2000) (by omega) (by omega)
  rw [twoDigits] at hday hmonth hyear
  rw [hday, hmonth, hyear] at hread
  exact hread

theorem value_lt {c : NmeaCoordinate} (h : c.fraction.length = 4) : c.value < 2 ^ 31 := by
  have hwhole := c.digitsValue_whole_lt
  have hfraction := c.digitsValue_fraction_lt
  rw [h] at hfraction
  rw [NmeaCoordinate.value, h]
  omega

def time (m : Moment) (hm : m.Valid) (milliseconds : Nat) (hms : milliseconds < 1000) : NmeaField :=
  bare (decimalText (clock m) (threeDigits milliseconds)) 'T'
    (.time ⟨m.hour, m.minute, m.second, milliseconds * 1000⟩)
    (isfield_decimalText (isdigit_append (isdigit_clock hm) (isdigit_threeDigits hms))) (by decide) fun _ hc rest =>
      congrArg (Option.map fun t => [Scanned.time t]) (scanTime_clock hm hms hc rest)

def date (m : Moment) (hm : m.Valid) (hyear : 2000 ≤ m.year ∧ m.year < 2100) : NmeaField :=
  bare (calendar m) 'D' (.date ⟨m.day, m.month, m.year - 2000⟩)
    (bare_of_digits (isdigit_calendar hm hyear)) (by decide) fun _ _ _ =>
      congrArg (Option.map fun d => [Scanned.date d]) (scanDate_calendar hm hyear _)

def letter (l : Letter) : NmeaField :=
  bare [l.char] 'c' (.char l.char) l.bare (by decide) fun _ _ _ => by
    have hfield := (l.bare _ List.mem_cons_self).1
    change some [Scanned.char (if minmeaIsfield l.char then l.char else 0)] = _
    rw [if_pos hfield]

def direction (d : Compass) : NmeaField :=
  bare [d.letter] 'd' (.int d.sign) (List.forall_mem_singleton.mpr (by cases d <;> decide)) (by decide)
    fun _ _ _ => by cases d <;> rfl

def number (n : NmeaNumber) : NmeaField :=
  bare (decimalText n.whole n.fraction) 'f'
    (.float ⟨(digitsValue n.whole * 10 ^ n.fraction.length + digitsValue n.fraction : Nat),
      (10 ^ n.fraction.length : Nat)⟩)
    (isfield_decimalText n.digits) (by decide) fun _ hc rest =>
      congrArg (Option.map fun f => [Scanned.float f])
        (scanFloat_decimalText n.digits n.whole_ne n.fits.1 n.fits.2 hc rest)

/-- A coordinate with four digits behind the point. -/
def coordinate (c : NmeaCoordinate) (h : c.fraction.length = 4) : NmeaField :=
  bare c.field 'f' (.float ⟨c.value, 10000⟩) (isfield_decimalText c.digits) (by decide) fun d hc rest => by
    have hread : scanFloat (some (c.field ++ d :: rest)) = some ⟨c.value, (10 ^ c.fraction.length : Nat)⟩ :=
      scanFloat_decimalText c.digits c.whole_ne (value_lt h) (h ▸ by decide) hc rest
    rw [h] at hread
    exact congrArg (Option.map fun f => [Scanned.float f]) hread

def integer (ds : Bytes) (h : ∀ d ∈ ds, signpostIsdigit d = true) (hne : ds ≠ []) (hfits : digitsValue ds < 2 ^ 31) :
    NmeaField :=
  bare ds 'i' (.int (digitsValue ds)) (bare_of_digits h) (by decide) fun _ hc rest =>
    congrArg (Option.map fun i => [Scanned.int i]) (scanInteger_digits h hne hfits hc rest)

def satellite : Option Satellite → NmeaField
  | none => bare [] 'i' (.int 0) (fun _ hc => nomatch hc) (by decide) fun _ hc rest =>
      congrArg (Option.map fun i => [Scanned.int i]) (scanInteger_blank hc rest)
  | some s => integer s.digits s.isdigit s.digits_ne s.fits

/-- Nothing is written of the magnetic variation. -/
def noVariation : NmeaField :=
  bare [] 'f' (.float ⟨0, 0⟩) (fun _ hc => nomatch hc) (by decide) fun _ hc rest =>
    congrArg (Option.map fun f => [Scanned.float f]) (scanFloat_blank hc rest)

def noDirection : NmeaField :=
  bare [] 'd' (.int 0) (fun _ hc => nomatch hc) (by decide) fun _ hc rest =>
    congrArg (Option.map fun i => [Scanned.int i]) (scanDirection_blank hc rest)

end NmeaField

/-! ## Sentences -/

def hexDigit (n : Nat) : UInt8 := if n < 10 then UInt8.ofNat (48 + n) else UInt8.ofNat (55 + n)

theorem hex2int_hexDigit : ∀ n < 16, hex2int (hexDigit n) = some n := by decide

def sentenceBody (kind : Bytes) (fields : List NmeaField) : Bytes := kind ++ commas fields

def sentence (kind : Bytes) (fields : List NmeaField) : Bytes :=
  let checksum := (sentenceBody kind fields).foldl (· ^^^ ·) 0
  chr '$' :: (sentenceBody kind fields ++ chr '*' :: hexDigit (checksum.toNat / 16) ::
    hexDigit (checksum.toNat % 16) :: [0x0D])

/-- The kinds of sentences that are parsed. -/
def Kind (kind : Bytes) : Prop := kind = Controller.ofChars "GPRMC" ∨ kind = Controller.ofChars "GPGSA"

section
variable {kind : Bytes} {fields : List NmeaField}

theorem Kind.bare (h : Kind kind) : ∀ c ∈ kind, minmeaIsfield c = true ∧ c ≠ chr '$' := by
  rcases h with rfl | rfl <;> exact forall_mem_of_all (by decide)

theorem ne_star_of_isfield {c : UInt8} (h : minmeaIsfield c = true) :
    (c ≠ chr '*' && signpostIsprint c) = true := by
  simp only [minmeaIsfield, Bool.and_eq_true] at h
  exact (Bool.and_eq_true _ _).mpr ⟨h.2, h.1.1⟩

theorem body_plain (hkind : Kind kind) :
    ∀ c ∈ sentenceBody kind fields, (c ≠ chr '*' && signpostIsprint c) = true := by
  intro c hc
  rcases List.mem_append.mp hc with hc | hc
  · exact ne_star_of_isfield (hkind.bare c hc).1
  · rcases mem_commas hc with rfl | ⟨f, -, hc⟩
    · rfl
    · exact ne_star_of_isfield (f.plain c hc)

theorem length_sentence (kind : Bytes) (fields : List NmeaField) :
    (sentence kind fields).length = (sentenceBody kind fields).length + 5 := by
  simp [sentence]

theorem minmeaCheck_sentence (hkind : Kind kind) (hshort : (sentence kind fields).length ≤ 83) :
    minmeaCheck (sentence kind fields) false = true := by
  obtain ⟨checksum, hchecksum⟩ : ∃ x, x = (sentenceBody kind fields).foldl (· ^^^ ·) 0 := ⟨_, rfl⟩
  have htail : (sentence kind fields).tail = sentenceBody kind fields ++ chr '*' :: hexDigit (checksum.toNat / 16) ::
      hexDigit (checksum.toNat % 16) :: [0x0D] := by rw [hchecksum]; rfl
  have hbody : (sentence kind fields).tail.takeWhile (fun c => c ≠ chr '*' && signpostIsprint c) =
      sentenceBody kind fields := by
    rw [htail, List.takeWhile_append_of_pos (body_plain hkind), List.takeWhile_cons_of_neg (by decide),
      List.append_nil]
  have hlength : ¬ (cstr (sentence kind fields)).length > minmeaMaxLength + 3 :=
    Nat.not_lt.mpr (Nat.le_trans (length_cstr_le _) hshort)
  have hdollar : ¬ (sentence kind fields).headD 0 ≠ chr '$' := not_not_intro rfl
  have hlt := checksum.toNat_lt
  have hupper := hex2int_hexDigit (checksum.toNat / 16) (by omega)
  have hlower := hex2int_hexDigit (checksum.toNat % 16) (by omega)
  have hsum : checksum.toNat = 16 * (checksum.toNat / 16) + checksum.toNat % 16 := (Nat.div_add_mod _ _).symm
  simp only [minmeaCheck, hbody, if_neg hlength, if_neg hdollar, ← hchecksum]
  rw [htail, List.drop_left]
  simp only [List.headD_cons, if_true, List.getD_cons_succ, List.getD_cons_zero, hupper, hlower, ← hsum, decide_true,
    Bool.true_and, Bool.false_and, Bool.not_false]

def NmeaField.sentenceKind (kind : Bytes) (hkind : Kind kind) : NmeaField where
  text := chr '$' :: kind
  type := 't'
  scanned := .str kind
  plain := List.forall_mem_cons.mpr ⟨rfl, fun c hc => (hkind.bare c hc).1⟩
  dollar := fun h => absurd rfl h
  type_ne := by decide
  reads := fun c _ rest => by rcases hkind with rfl | rfl <;> rfl

theorem minmeaScan_sentence (hkind : Kind kind) (format : String) (fields more : List NmeaField)
    (hformat : format.toList = 't' :: fields.map NmeaField.type) :
    minmeaScan (sentence kind (fields ++ more)) format = some (.str kind :: fields.map NmeaField.scanned) := by
  rw [minmeaScan, hformat, sentence, sentenceBody, List.append_assoc]
  exact minmeaScanFrom_fields (.sentenceKind kind hkind) fields more _

theorem minmeaSentenceId_sentence (hkind : Kind kind) (hshort : (sentence kind fields).length ≤ 83) :
    minmeaSentenceId (sentence kind fields) false =
      if kind = Controller.ofChars "GPRMC" then .rmc else .gsa := by
  have hscan : minmeaScan (sentence kind fields) "t" = some [.str kind] := minmeaScan_sentence hkind "t" [] fields rfl
  rw [minmeaSentenceId, minmeaCheck_sentence hkind hshort, hscan]
  rcases hkind with rfl | rfl <;> rfl

theorem sentence_tail (hkind : Kind kind) (htypes : ∀ f ∈ fields, f.type ≠ 't') :
    ∀ c ∈ (sentence kind fields).tail, c ≠ 0x0A ∧ c ≠ 0 ∧ c ≠ chr '$' := by
  have hprint : ∀ c, (c ≠ chr '*' && signpostIsprint c) = true → c ≠ 0x0A ∧ c ≠ 0 := by
    intro c hc
    constructor <;>
    · rintro rfl
      cases hc
  have hhex : ∀ n < 16, hexDigit n ≠ 0x0A ∧ hexDigit n ≠ 0 ∧ hexDigit n ≠ chr '$' := by decide
  intro c hc
  have hlt := ((sentenceBody kind fields).foldl (· ^^^ ·) 0).toNat_lt
  rcases List.mem_append.mp hc with hc | hc
  · have hplain := hprint c (body_plain hkind c hc)
    refine ⟨hplain.1, hplain.2, ?_⟩
    rcases List.mem_append.mp hc with hc | hc
    · exact (hkind.bare c hc).2
    · rcases mem_commas hc with rfl | ⟨f, hf, hc⟩
      · decide
      · rintro rfl
        exact f.dollar (htypes f hf) hc
  · simp only [List.mem_cons, List.not_mem_nil, or_false] at hc
    rcases hc with rfl | rfl | rfl | rfl
    · decide
    · exact hhex _ (by omega)
    · exact hhex _ (by omega)
    · decide

end

end Signpost
