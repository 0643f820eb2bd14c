/-
The reception of the GPS library (`gps_continuous`, `gps_sample` and `gps_rx_callback` in
`gps.c`): what it gives its user of the fixes that a receiver sends.

A reception overwrites the beginning of the buffer only. What is behind it is still there
when the lines are taken apart.

A line is taken apart by `strtok`, which writes a zero behind it, and the next call goes on from
there. So lines of an earlier, longer reception are read again. They are known, and change nothing
that is called back.
-/
import Signpost.NmeaSentence
import Signpost.TimeLocation

namespace Signpost

open Lib Calendar

/-- `strtok` with a line feed: what it has gone over, where the line feed behind the line is a
zero then, the line, and what is left. A string ends at a zero, or with the buffer. -/
def strtok (s : Bytes) : Option (Bytes × Bytes × Bytes) :=
  let skipped := s.takeWhile (· = 0x0A)
  let line := (s.drop skipped.length).takeWhile fun c => c ≠ 0x0A && c ≠ 0
  let rest := s.drop (skipped.length + line.length)
  if line = [] then none
  else if rest.headD 0 = 0x0A then some (skipped ++ line ++ [0], line, rest.tail)
  else some (skipped ++ line, line, rest)

/-- What `strtok` gives is of the string: the line is behind what it has gone over. -/
structure Tokenized (s before line rest : Bytes) : Prop where
  line_ne : line ≠ []
  length : before.length + rest.length = s.length
  before_le : line.length ≤ before.length
  mem_before : ∀ c ∈ before, c = 0 ∨ c ∈ s
  mem_line : ∀ c ∈ line, c ∈ s
  mem_rest : ∀ c ∈ rest, c ∈ s

theorem strtok_tokenized {s before line rest : Bytes} (h : strtok s = some (before, line, rest)) :
    Tokenized s before line rest := by
  obtain ⟨skipped, hskipped⟩ : ∃ l, l = s.takeWhile (· = 0x0A) := ⟨_, rfl⟩
  obtain ⟨token, htoken⟩ : ∃ l, l = (s.drop skipped.length).takeWhile fun c => c ≠ 0x0A && c ≠ 0 := ⟨_, rfl⟩
  obtain ⟨body, hbody⟩ : skipped <+: s := hskipped ▸ List.takeWhile_prefix _
  have hdrop : s.drop skipped.length = body := by rw [← hbody, List.drop_left]
  obtain ⟨left, hleft⟩ : token <+: body := by
    rw [htoken, hdrop]
    exact List.takeWhile_prefix _
  have hrest : s.drop (skipped.length + token.length) = left := by
    rw [← List.drop_drop, hdrop, ← hleft, List.drop_left]
  have hs : s = skipped ++ (token ++ left) := by rw [hleft, hbody]
  simp only [strtok, ← hskipped, ← htoken, hrest] at h
  split at h
  · cases h
  · next hne =>
    split at h
    · next hend =>
      obtain ⟨c, more, rfl⟩ : ∃ c more, left = c :: more := by
        cases left with
        | nil => cases hend
        | cons c more => exact ⟨c, more, rfl⟩
      cases h
      exact {
        line_ne := hne
        length := by
          rw [hs]
          simp only [List.length_append, List.length_cons, List.length_nil, List.tail_cons]
          omega
        before_le := by
          rw [List.length_append, List.length_append]
          omega
        mem_before := fun d hd => by
          rw [hs]
          simp only [List.mem_append, List.mem_singleton] at hd ⊢
          rcases hd with (hd | hd) | hd
          · exact .inr (.inl hd)
          · exact .inr (.inr (.inl hd))
          · exact .inl hd
        mem_line := fun d hd => hs ▸ List.mem_append_right _ (List.mem_append_left _ hd)
        mem_rest := fun d hd =>
          hs ▸ List.mem_append_right _ (List.mem_append_right _ (List.mem_cons_of_mem _ hd)) }
    · cases h
      exact {
        line_ne := hne
        length := by rw [hs, List.length_append, List.length_append, List.length_append, Nat.add_assoc]
        before_le := by
          rw [List.length_append]
          exact Nat.le_add_left _ _
        mem_before := fun d hd => .inr (by rw [hs, ← List.append_assoc]; exact List.mem_append_left _ hd)
        mem_line := fun d hd => hs ▸ List.mem_append_right _ (List.mem_append_left _ hd)
        mem_rest := fun d hd => hs ▸ List.mem_append_right _ (List.mem_append_right _ hd) }

theorem length_strtok {s before line rest : Bytes} (h : strtok s = some (before, line, rest)) :
    rest.length < s.length := by
  have htokens := strtok_tokenized h
  have hpos := List.length_pos_iff.mpr htokens.line_ne
  have hle := htokens.before_le
  have hlength := htokens.length
  omega

/-- The loop of `gps_rx_callback`: the buffer then, the data, and whether it was updated. -/
def gpsLines (s : Bytes) (gpsData : GpsData) (dataUpdated : Bool) : Option (Bytes × GpsData × Bool) :=
  match _h : strtok s with
  | none => some (s, gpsData, dataUpdated)
  | some (before, line, rest) =>
    (gpsParseData gpsData line).bind fun r =>
      (gpsLines rest r.1 (dataUpdated || r.2)).map fun q => (before ++ q.1, q.2)
termination_by s.length
decreasing_by exact length_strtok _h

structure GpsListener where
  buffer : Bytes
  gpsData : GpsData
  continuousMode : Bool
  /-- The driver has been asked for a reception. -/
  listening : Bool

namespace GpsListener

def boot : GpsListener where
  buffer := List.replicate 500 0
  gpsData := ⟨0, 0, 0, 0, 0, 0, 0, 0, 0, 0, 0⟩
  continuousMode := false
  listening := false

/-- `gps_continuous` and `gps_sample`, which ask for a callback. -/
def listen (s : GpsListener) (continuousMode : Bool) : GpsListener := { s with continuousMode, listening := true }

/-- `gps_rx_callback`, and what the user is called back with; `none` is a division by zero. -/
def gpsRxCallback (s : GpsListener) : Option (GpsListener × List GpsData) :=
  (gpsLines s.buffer s.gpsData false).map fun (buffer, gpsData, dataUpdated) =>
    ({ s with buffer, gpsData, listening := s.listening || s.continuousMode || !dataUpdated },
      if dataUpdated then [gpsData] else [])

/-- The driver's `receive_complete`. What comes when nobody listens is lost. -/
def receive (s : GpsListener) (data : Bytes) : Option (GpsListener × List GpsData) :=
  if s.listening then
    gpsRxCallback { s with
      buffer := data.take s.buffer.length ++ s.buffer.drop data.length
      listening := false }
  else some (s, [])

end GpsListener

/-! ## What a receiver sends -/

/-- A fix, with all that its two sentences are written of. -/
structure GpsFix where
  moment : Moment
  valid : moment.Valid
  century : 2000 ≤ moment.year ∧ moment.year < 2100
  milliseconds : Nat
  milliseconds_lt : milliseconds < 1000
  status : Letter
  latitude : NmeaCoordinate
  latitude_digits : latitude.whole.length = 4 ∧ latitude.fraction.length = 4
  longitude : NmeaCoordinate
  longitude_digits : longitude.whole.length = 5 ∧ longitude.fraction.length = 4
  speed : NmeaNumber
  course : NmeaNumber
  mode : Letter
  selection : Letter
  fixType : Fin 10
  satellites : Fin 12 → Option Satellite
  pdop : NmeaNumber
  hdop : NmeaNumber
  vdop : NmeaNumber
  /-- Which of the sentences comes first. -/
  rmcFirst : Bool

namespace GpsFix

variable (f : GpsFix)

/-- The fields of the RMC sentence that are read. -/
def rmcFields : List NmeaField :=
  [.time f.moment f.valid f.milliseconds f.milliseconds_lt, .letter f.status,
    .coordinate f.latitude f.latitude_digits.2, .direction (if f.latitude.positive then .north else .south),
    .coordinate f.longitude f.longitude_digits.2, .direction (if f.longitude.positive then .east else .west),
    .number f.speed, .number f.course, .date f.moment f.valid f.century, .noVariation, .noDirection]

def rmc : Bytes := sentence (Controller.ofChars "GPRMC") (f.rmcFields ++ [.letter f.mode])

def gsaFields : List NmeaField :=
  [.letter f.selection,
    .integer [digit f.fixType] (fun d hd => List.mem_singleton.mp hd ▸ isdigit_digit f.fixType.isLt)
      (List.cons_ne_nil _ _) (Nat.lt_of_le_of_lt (Nat.le_of_eq (digitsValue_digit f.fixType.isLt))
        (Nat.lt_trans f.fixType.isLt (by decide)))] ++
    (List.finRange 12).map (fun i => .satellite (f.satellites i)) ++ [.number f.pdop, .number f.hdop, .number f.vdop]

def gsa : Bytes := sentence (Controller.ofChars "GPGSA") f.gsaFields

def lines : List Bytes := if f.rmcFirst then [f.rmc, f.gsa] else [f.gsa, f.rmc]

def text : Bytes := f.lines.flatMap fun line => line ++ [0x0A]

def satelliteCount : Nat := ((List.finRange 12).filter fun i => (f.satellites i).isSome).length

/-- Millionths of a degree, of a coordinate with four digits; parts of sixty units are left out. -/
def microdegrees (c : NmeaCoordinate) : Int := (c.degrees * 1000000 + c.minutes / 60 * 100 : Nat) * c.direction

def data : GpsData where
  day := UInt8.ofInt f.moment.day
  month := UInt8.ofInt f.moment.month
  year := UInt8.ofInt (f.moment.year - 2000)
  hours := UInt8.ofInt f.moment.hour
  minutes := UInt8.ofInt f.moment.minute
  seconds := UInt8.ofInt f.moment.second
  microseconds := UInt32.ofInt (f.milliseconds * 1000)
  latitude := UInt32.ofInt (microdegrees f.latitude)
  longitude := UInt32.ofInt (microdegrees f.longitude)
  fix := UInt8.ofInt f.fixType.val
  satelliteCount := UInt8.ofNat f.satelliteCount

end GpsFix

/-- The satellite with this number, if it is one. -/
def satelliteOf (number : String) : Option Satellite :=
  let digits := Controller.ofChars number
  if h : digits.all signpostIsdigit = true ∧ digits.length ≤ 3 ∧ digitsValue digits ≠ 0 then
    some ⟨digits, List.all_eq_true.mp h.1, h.2.1, h.2.2⟩
  else none

/-- Eight satellites, and a place in Taiwan. -/
def sampleFix : GpsFix where
  moment := ⟨2006, 4, 26, 6, 49, 51⟩
  valid := ⟨by decide, by decide, by decide, by decide, by decide⟩
  century := by decide
  milliseconds := 0
  milliseconds_lt := by decide
  status := ⟨chr 'A', by decide⟩
  latitude := ⟨Controller.ofChars "2307", Controller.ofChars "1256", by decide, forall_mem_of_all (by decide),
    by decide, by decide, by decide, true⟩
  latitude_digits := by decide
  longitude := ⟨Controller.ofChars "12016", Controller.ofChars "4438", by decide, forall_mem_of_all (by decide),
    by decide, by decide, by decide, true⟩
  longitude_digits := by decide
  speed := ⟨Controller.ofChars "0", Controller.ofChars "03", by decide, forall_mem_of_all (by decide), by decide⟩
  course := ⟨Controller.ofChars "165", Controller.ofChars "48", by decide, forall_mem_of_all (by decide), by decide⟩
  mode := ⟨chr 'A', by decide⟩
  selection := ⟨chr 'A', by decide⟩
  fixType := 3
  satellites := fun i =>
    [satelliteOf "29", satelliteOf "21", satelliteOf "26", satelliteOf "15", satelliteOf "18", satelliteOf "09",
      satelliteOf "06", satelliteOf "10"].getD i none
  pdop := ⟨Controller.ofChars "2", Controller.ofChars "32", by decide, forall_mem_of_all (by decide), by decide⟩
  hdop := ⟨Controller.ofChars "0", Controller.ofChars "95", by decide, forall_mem_of_all (by decide), by decide⟩
  vdop := ⟨Controller.ofChars "2", Controller.ofChars "11", by decide, forall_mem_of_all (by decide), by decide⟩
  rmcFirst := false

example : sampleFix.gsa = Controller.ofChars "$GPGSA,A,3,29,21,26,15,18,09,06,10,,,,,2.32,0.95,2.11*00\r" := by
  decide +kernel

example : sampleFix.rmc =
    Controller.ofChars "$GPRMC,064951.000,A,2307.1256,N,12016.4438,E,0.03,165.48,260406,,,A*63\r" := by
  decide +kernel

/-! ## What is made of it -/

namespace GpsFix

variable (f : GpsFix) (gpsData : GpsData)

theorem length_number_le (n : NmeaNumber) : (NmeaField.number n).text.length ≤ 6 :=
  Nat.le_trans (length_decimalText_le _ _) (Nat.succ_le_succ n.length_le)

theorem length_satellite_le (s : Option Satellite) : (NmeaField.satellite s).text.length ≤ 3 := by
  cases s with
  | none => exact Nat.zero_le 3
  | some s => exact s.length_le

theorem length_decimalText {whole fraction : Bytes} (h : fraction ≠ []) :
    (decimalText whole fraction).length = whole.length + fraction.length + 1 := by
  rw [decimalText, if_neg h, List.length_append, List.length_cons, Nat.add_assoc]

theorem length_gsa : f.gsa.length ≤ 83 := by
  have hsatellites : (commas ((List.finRange 12).map fun i => NmeaField.satellite (f.satellites i))).length ≤ 48 := by
    refine Nat.le_trans (length_commas_le (n := 3) fun g hg => ?_) (by rw [List.length_map, List.length_finRange])
    obtain ⟨i, -, rfl⟩ := List.mem_map.mp hg
    exact length_satellite_le _
  have hnumbers : (commas [.number f.pdop, .number f.hdop, .number f.vdop]).length ≤ 21 := by
    refine length_commas_le (n := 6) fun g hg => ?_
    simp only [List.mem_cons, List.not_mem_nil, or_false] at hg
    rcases hg with rfl | rfl | rfl <;> exact length_number_le _
  rw [gsa, length_sentence, sentenceBody, gsaFields, commas_append, commas_append, List.length_append,
    List.length_append, List.length_append]
  change 5 + (4 + _ + _) + 5 ≤ 83
  omega

theorem length_coordinate {c : NmeaCoordinate} (h : c.fraction.length = 4) :
    (NmeaField.coordinate c h).text.length = c.whole.length + 5 := by
  change (decimalText c.whole c.fraction).length = _
  rw [length_decimalText (List.ne_nil_of_length_eq_add_one h), h]

theorem length_rmc : 61 ≤ f.rmc.length ∧ f.rmc.length ≤ 83 := by
  have hspeed := length_number_le f.speed
  have hcourse := length_number_le f.course
  have hlatitude := (length_coordinate f.latitude_digits.2).trans (congrArg (· + 5) f.latitude_digits.1)
  have hlongitude := (length_coordinate f.longitude_digits.2).trans (congrArg (· + 5) f.longitude_digits.1)
  have hlength : f.rmc.length = 42 + (NmeaField.coordinate f.latitude f.latitude_digits.2).text.length +
      (NmeaField.coordinate f.longitude f.longitude_digits.2).text.length + (NmeaField.number f.speed).text.length +
      (NmeaField.number f.course).text.length := by
    rw [rmc, length_sentence, sentenceBody, List.length_append, length_commas, rmcFields]
    simp only [List.cons_append, List.nil_append, List.map_cons, List.map_nil, List.sum_cons, List.sum_nil]
    change 5 + (11 + (2 + (_ + 1 + (2 + (_ + 1 + (2 + (_ + 1 + (_ + 1 + (7 + (1 + (1 + (2 + 0)))))))))))) + 5 = _
    omega
  omega

def satelliteNumber : Option Satellite → Int
  | none => 0
  | some s => digitsValue s.digits

theorem satellite_field (s : Option Satellite) :
    (NmeaField.satellite s).type = 'i' ∧ (NmeaField.satellite s).scanned = .int (satelliteNumber s) := by
  cases s with
  | none => exact ⟨rfl, rfl⟩
  | some s => exact ⟨rfl, rfl⟩

theorem length_satellites (satellites : Fin 12 → Option Satellite) :
    (((List.finRange 12).map fun i => satelliteNumber (satellites i)).filter (· ≠ 0)).length =
      ((List.finRange 12).filter fun i => (satellites i).isSome).length := by
  rw [List.filter_map, List.length_map]
  refine congrArg List.length (List.filter_congr fun i _ => ?_)
  rw [Function.comp_apply]
  cases satellites i with
  | none => rfl
  | some s => exact decide_eq_true (Int.natCast_ne_zero.mpr s.ne_zero)

theorem gsa_types : 't' :: f.gsaFields.map NmeaField.type = "tciiiiiiiiiiiiifff".toList := by
  simp only [gsaFields, List.map_append, List.map_map, Function.comp_def, satellite_field]
  rfl

theorem gpsParseData_gsa : gpsParseData gpsData f.gsa =
    some ({ gpsData with fix := f.data.fix, satelliteCount := f.data.satelliteCount }, true) := by
  have hid : minmeaSentenceId f.gsa false = .gsa :=
    (minmeaSentenceId_sentence (.inr rfl) f.length_gsa).trans (if_neg (by decide))
  have hscan := minmeaScan_sentence (.inr rfl) _ f.gsaFields [] f.gsa_types.symm
  have hscanned : f.gsaFields.map NmeaField.scanned =
      [.char f.selection.char, .int (digitsValue [digit f.fixType])] ++
        ((List.finRange 12).map fun i => .int (satelliteNumber (f.satellites i))) ++
        [(NmeaField.number f.pdop).scanned, (NmeaField.number f.hdop).scanned, (NmeaField.number f.vdop).scanned] := by
    simp only [gsaFields, List.map_append, List.map_map, Function.comp_def, satellite_field]
    rfl
  rw [List.append_nil, hscanned] at hscan
  have hparse : ∃ frame, minmeaParseGsa f.gsa = some frame ∧ frame.fixType = f.fixType.val ∧
      frame.sats = (List.finRange 12).map fun i => satelliteNumber (f.satellites i) := by
    rw [minmeaParseGsa, gsa, hscan]
    refine ⟨_, rfl, ?_, ?_⟩
    · exact congrArg _ (digitsValue_digit f.fixType.isLt)
    · rfl
  obtain ⟨frame, hframe, hfix, hsats⟩ := hparse
  rw [gpsParseData, hid, hframe]
  simp only [hfix, hsats, length_satellites]
  rfl

theorem toDecimalDegrees_microdegrees {c : NmeaCoordinate} (h : c.fraction.length = 4) {s : Int}
    (hs : s = c.direction) : toDecimalDegrees ⟨c.value * s, 10000⟩ = some (microdegrees c) := by
  have hminutes := c.minutes_lt_sixty
  have hvalue := c.value_eq
  have hdegrees : c.degrees ≤ 180 := c.degrees_le
  rw [h] at hminutes hvalue
  have hfits : c.degrees * (100 * 10 ^ 4) + c.minutes < 2 ^ 31 := hvalue ▸ NmeaField.value_lt h
  have hconverted := toDecimalDegrees_eq c.direction_cases hdegrees (by decide) (by decide) hminutes hfits
  have hwhole : int32 ((c.degrees * (100 * 10 ^ 4) + c.minutes / 60 * 100 : Nat) * c.direction) =
      (c.degrees * (100 * 10 ^ 4) + c.minutes / 60 * 100 : Nat) * c.direction :=
    int32_sign c.direction_cases (by omega)
  rw [hs, hvalue]
  rw [hwhole] at hconverted
  exact hconverted

theorem gpsParseData_rmc : gpsParseData gpsData f.rmc =
    some ({ f.data with fix := gpsData.fix, satelliteCount := gpsData.satelliteCount }, true) := by
  have hid : minmeaSentenceId f.rmc false = .rmc :=
    (minmeaSentenceId_sentence (.inl rfl) f.length_rmc.2).trans (if_pos rfl)
  have hscan := minmeaScan_sentence (.inl rfl) "tTcfdfdffDfd" f.rmcFields [.letter f.mode] rfl
  have hparse : ∃ frame, minmeaParseRmc f.rmc = some frame ∧
      frame.time = ⟨f.moment.hour, f.moment.minute, f.moment.second, f.milliseconds * 1000⟩ ∧
      frame.date = ⟨f.moment.day, f.moment.month, f.moment.year - 2000⟩ ∧
      frame.latitude = ⟨f.latitude.value * (if f.latitude.positive then Compass.north else .south).sign, 10000⟩ ∧
      frame.longitude = ⟨f.longitude.value * (if f.longitude.positive then Compass.east else .west).sign, 10000⟩ := by
    rw [minmeaParseRmc, rmc, hscan]
    exact ⟨_, rfl, rfl, rfl, rfl, rfl⟩
  obtain ⟨frame, hframe, htime, hdate, hlatitude, hlongitude⟩ := hparse
  have hnorth := toDecimalDegrees_microdegrees f.latitude_digits.2
    (s := (if f.latitude.positive then Compass.north else .south).sign) (by
      rw [NmeaCoordinate.direction]
      split <;> rfl)
  have heast := toDecimalDegrees_microdegrees f.longitude_digits.2
    (s := (if f.longitude.positive then Compass.east else .west).sign) (by
      rw [NmeaCoordinate.direction]
      split <;> rfl)
  rw [gpsParseData, hid, hframe]
  simp only [htime, hdate, hlatitude, hlongitude, hnorth, heast, Option.bind_some, Option.map_some]
  rfl

end GpsFix

/-! ## Taking lines apart -/

section
variable {s line rest : Bytes} {gpsData : GpsData}

theorem strtok_line (hne : line ≠ []) (hline : ∀ c ∈ line, c ≠ 0x0A ∧ c ≠ 0) (rest : Bytes) :
    strtok (line ++ 0x0A :: rest) = some (line ++ [0], line, rest) := by
  have hskipped : (line ++ 0x0A :: rest).takeWhile (· = 0x0A) = [] := by
    obtain ⟨c, line, rfl⟩ := List.exists_cons_of_ne_nil hne
    exact List.takeWhile_cons_of_neg (by simpa using (hline c List.mem_cons_self).1)
  have htoken : (line ++ 0x0A :: rest).takeWhile (fun c => c ≠ 0x0A && c ≠ 0) = line := by
    rw [List.takeWhile_append_of_pos (fun c hc => by simpa using hline c hc), List.takeWhile_cons_of_neg (by decide),
      List.append_nil]
  simp only [strtok, hskipped, List.length_nil, List.drop_zero, htoken, if_neg hne, Nat.zero_add, List.drop_left,
    List.headD_cons, if_true, List.nil_append, List.tail_cons]

theorem gpsLines_cons {before : Bytes} (h : strtok s = some (before, line, rest)) (dataUpdated : Bool) :
    gpsLines s gpsData dataUpdated = (gpsParseData gpsData line).bind fun r =>
      (gpsLines rest r.1 (dataUpdated || r.2)).map fun q => (before ++ q.1, q.2) := by
  rw [gpsLines]
  split
  · next hnone =>
    rw [h] at hnone
    cases hnone
  · next hsome =>
    rw [h] at hsome
    cases hsome
    rfl

theorem gpsLines_nil (h : strtok s = none) (dataUpdated : Bool) :
    gpsLines s gpsData dataUpdated = some (s, gpsData, dataUpdated) := by
  rw [gpsLines]
  split
  · rfl
  · next hsome =>
    rw [h] at hsome
    cases hsome

theorem gpsParseData_dollar (h : chr '$' ∉ line) : gpsParseData gpsData line = some (gpsData, false) := by
  have hhead : line.headD 0 ≠ chr '$' := by
    cases line with
    | nil => decide
    | cons c line => exact fun heq => h (heq ▸ List.mem_cons_self)
  have hcheck : minmeaCheck line false = false := by
    simp only [minmeaCheck, if_pos hhead, ite_self]
  have hid : minmeaSentenceId line false = .invalid := by
    rw [minmeaSentenceId, hcheck]
    rfl
  rw [gpsParseData, hid]

theorem gpsLines_dollar (gpsData : GpsData) (h : chr '$' ∉ s) (dataUpdated : Bool) :
    ∃ s', gpsLines s gpsData dataUpdated = some (s', gpsData, dataUpdated) ∧ s'.length = s.length ∧ chr '$' ∉ s' := by
  induction hn : s.length using Nat.strong_induction_on generalizing s with
  | _ n ih =>
    cases htoken : strtok s with
    | none => exact ⟨s, gpsLines_nil htoken dataUpdated, hn, h⟩
    | some t =>
      obtain ⟨before, line, rest⟩ := t
      have htokens := strtok_tokenized htoken
      obtain ⟨s', hs', hlength, hdollar⟩ :=
        ih rest.length (hn ▸ length_strtok htoken) (fun hmem => h (htokens.mem_rest _ hmem)) rfl
      refine ⟨before ++ s', ?_, ?_, ?_⟩
      · rw [gpsLines_cons htoken, gpsParseData_dollar fun hmem => h (htokens.mem_line _ hmem), Option.bind_some,
          Bool.or_false, hs', Option.map_some]
      · rw [List.length_append, hlength, htokens.length, hn]
      · intro hmem
        rcases List.mem_append.mp hmem with hmem | hmem
        · rcases htokens.mem_before _ hmem with hzero | hmem
          · cases hzero
          · exact h hmem
        · exact hdollar hmem

end

/-! ## Receptions -/

namespace GpsFix

variable (f : GpsFix)

/-- A line of a fix: its only dollar is the first character. -/
structure Line (line : Bytes) : Prop where
  tail : ∃ tail, line = chr '$' :: tail ∧ ∀ c ∈ tail, c ≠ 0x0A ∧ c ≠ 0 ∧ c ≠ chr '$'
  length_le : line.length ≤ 83

theorem line_sentence {kind : Bytes} (hkind : Kind kind) {fields : List NmeaField}
    (htypes : 't' ∉ fields.map NmeaField.type) (hlength : (sentence kind fields).length ≤ 83) :
    Line (sentence kind fields) :=
  ⟨⟨_, rfl, sentence_tail hkind fun _ hg heq => htypes (heq ▸ List.mem_map_of_mem hg)⟩, hlength⟩

theorem line_gsa : Line f.gsa := by
  refine line_sentence (.inr rfl) ?_ f.length_gsa
  have htypes : f.gsaFields.map NmeaField.type = "ciiiiiiiiiiiiifff".toList := List.tail_eq_of_cons_eq f.gsa_types
  rw [htypes]
  decide

theorem line_rmc : Line f.rmc := by
  refine line_sentence (.inl rfl) ?_ f.length_rmc.2
  have htypes : (f.rmcFields ++ [NmeaField.letter f.mode]).map NmeaField.type = "TcfdfdffDfdc".toList := rfl
  rw [htypes]
  decide

theorem lines_read (gpsData : GpsData) : ∃ first second between, f.lines = [first, second] ∧
    Line first ∧ Line second ∧ 85 ≤ (first.length + 1) + (second.length + 1) ∧
    gpsParseData gpsData first = some (between, true) ∧ gpsParseData between second = some (f.data, true) := by
  have hrmc := f.length_rmc.1
  have hgsa : 22 ≤ f.gsa.length := by
    have hfields := length_le_commas f.gsaFields
    have htypes := congrArg List.length f.gsa_types
    rw [List.length_cons, List.length_map] at htypes
    change _ = 18 at htypes
    rw [gsa, length_sentence, sentenceBody, List.length_append]
    omega
  rw [lines]
  split
  · refine ⟨_, _, _, rfl, f.line_rmc, f.line_gsa, by omega, f.gpsParseData_rmc _, ?_⟩
    rw [gpsParseData_gsa]
  · refine ⟨_, _, _, rfl, f.line_gsa, f.line_rmc, by omega, f.gpsParseData_gsa _, ?_⟩
    rw [gpsParseData_rmc]

end GpsFix

namespace GpsFix

theorem toNat_ofInt {x : Int} (hlow : 0 ≤ x) (hhigh : x < 256) : ((UInt8.ofInt x).toNat : Int) = x := by
  rw [UInt8.ofInt, UInt8.toNat_ofNat_of_lt' (by simp only [UInt8.size]; omega)]
  omega

theorem shows (f : GpsFix) : TimeLocation.Shows f.data f.moment := by
  have hcentury := f.century
  have hmonth := f.valid.month
  have hday := f.valid.day
  have hhour := f.valid.hour
  have hminute := f.valid.minute
  have hsecond := f.valid.second
  have hlength := NmeaField.toNat_day_lt f.valid
  have hyear : ((UInt8.ofInt (f.moment.year - 2000)).toNat : Int) = f.moment.year - 2000 :=
    toNat_ofInt (by omega) (by omega)
  exact {
    year := by
      rw [data, hyear]
      exact Int.sub_add_cancel ..
    month := toNat_ofInt (by omega) (by omega)
    day := toNat_ofInt (by omega) (by omega)
    hours := toNat_ofInt hhour.1 (by omega)
    minutes := toNat_ofInt hminute.1 (by omega)
    seconds := toNat_ofInt hsecond.1 (by omega) }

end GpsFix

namespace GpsListener

/-- Behind the lines of any fix, there is no dollar in the buffer. -/
structure Quiet (s : GpsListener) : Prop where
  length : s.buffer.length = 500
  dollar : chr '$' ∉ s.buffer.drop 85

variable {s : GpsListener}

theorem gpsLines_two {first second : Bytes} {gpsData between last : GpsData} (hfirst : GpsFix.Line first)
    (hsecond : GpsFix.Line second) (hread : gpsParseData gpsData first = some (between, true))
    (hread' : gpsParseData between second = some (last, true)) {stale : Bytes} (hstale : chr '$' ∉ stale) :
    ∃ stale', gpsLines (first ++ 0x0A :: (second ++ 0x0A :: stale)) gpsData false =
        some (first ++ [0] ++ (second ++ [0] ++ stale'), last, true) ∧
      stale'.length = stale.length ∧ chr '$' ∉ stale' := by
  have htoken : ∀ {line : Bytes}, GpsFix.Line line → ∀ rest,
      strtok (line ++ 0x0A :: rest) = some (line ++ [0], line, rest) := by
    intro line hline rest
    obtain ⟨tail, rfl, htail⟩ := hline.tail
    refine strtok_line (List.cons_ne_nil _ _) (fun c hc => ?_) rest
    rcases List.mem_cons.mp hc with rfl | hc
    · decide
    · exact ⟨(htail c hc).1, (htail c hc).2.1⟩
  obtain ⟨stale', hlines, hlength, hdollar⟩ := gpsLines_dollar last hstale true
  refine ⟨stale', ?_, hlength, hdollar⟩
  rw [gpsLines_cons (htoken hfirst _), hread, Option.bind_some, gpsLines_cons (htoken hsecond _), hread',
    Option.bind_some, Bool.or_true, hlines]
  rfl

theorem Quiet.receive (h : s.Quiet) (hlistening : s.listening = true) (f : GpsFix) :
    ∃ s', s.receive f.text = some (s', [f.data]) ∧ s'.Quiet ∧ s'.continuousMode = s.continuousMode ∧
      s'.listening = s.continuousMode := by
  obtain ⟨first, second, between, hlines, hfirst, hsecond, hlong, hread, hread'⟩ := f.lines_read s.gpsData
  have htext : f.text = first ++ 0x0A :: (second ++ [0x0A]) := by
    rw [GpsFix.text, hlines]
    simp
  have hlength : f.text.length = (first.length + 1) + (second.length + 1) := by
    rw [htext]
    simp only [List.length_append, List.length_cons, List.length_nil]
    omega
  have hshort : f.text.length ≤ s.buffer.length := by
    have hle := hfirst.length_le
    have hle' := hsecond.length_le
    rw [h.length]
    omega
  have hstale : chr '$' ∉ s.buffer.drop f.text.length := fun hmem =>
    h.dollar (List.drop_subset_drop_left _ (by omega) hmem)
  obtain ⟨stale, hstep, hstalelength, hdollar⟩ := gpsLines_two hfirst hsecond hread hread' hstale
  have hbuffer : f.text.take s.buffer.length ++ s.buffer.drop f.text.length =
      first ++ 0x0A :: (second ++ 0x0A :: s.buffer.drop f.text.length) := by
    rw [List.take_of_length_le hshort, htext]
    simp
  refine ⟨{ s with
    buffer := first ++ [0] ++ (second ++ [0] ++ stale)
    gpsData := f.data
    listening := s.continuousMode }, ?_, ⟨?_, ?_⟩, rfl, rfl⟩
  · rw [GpsListener.receive, if_pos hlistening, gpsRxCallback, hbuffer, hstep]
    simp
  · simp only [List.length_append, List.length_singleton, hstalelength, List.length_drop, hlength]
    have hfive := h.length
    omega
  · -- The second line's own dollar is the last one, and it is not behind the longest first line.
    obtain ⟨tail, rfl, htail⟩ := hsecond.tail
    have hsplit : first ++ [0] ++ (chr '$' :: tail ++ [0] ++ stale) =
        (first ++ [0, chr '$']) ++ (tail ++ [0] ++ stale) := by simp
    have hfirst' : (first ++ [0, chr '$']).length ≤ 85 := by
      rw [List.length_append]
      exact Nat.add_le_add_right hfirst.length_le 2
    rw [hsplit, List.drop_append, List.drop_of_length_le hfirst', List.nil_append]
    intro hmem
    rcases List.mem_append.mp (List.mem_of_mem_drop hmem) with hmem | hmem
    · rcases List.mem_append.mp hmem with hmem | hmem
      · exact (htail _ hmem).2.2 rfl
      · exact absurd (List.mem_singleton.mp hmem) (by decide)
    · exact hdollar hmem

theorem exec_lost (h : s.listening = false) (fixes : List GpsFix) :
    Run.exec receive s (fixes.map GpsFix.text) = some (s, []) := by
  induction fixes with
  | nil => rfl
  | cons f fixes ih =>
    have hstep : s.receive f.text = some (s, []) := if_neg (by rw [h]; exact Bool.false_ne_true)
    rw [List.map_cons, Run.exec, hstep, Option.bind_some, ih]
    rfl

theorem Quiet.exec (h : s.Quiet) (hlistening : s.listening = true) (fixes : List GpsFix) :
    ∃ s', Run.exec GpsListener.receive s (fixes.map GpsFix.text) =
      some (s', (if s.continuousMode then fixes else fixes.take 1).map GpsFix.data) := by
  induction fixes generalizing s with
  | nil => exact ⟨s, by simp [Run.exec]⟩
  | cons f fixes ih =>
    obtain ⟨s₁, hstep, hquiet, hmode, hnext⟩ := h.receive hlistening f
    cases hcontinuous : s.continuousMode with
    | true =>
      obtain ⟨s', hs'⟩ := ih hquiet (hnext.trans hcontinuous)
      rw [hmode, hcontinuous, if_pos rfl] at hs'
      refine ⟨s', ?_⟩
      rw [List.map_cons, Run.exec, hstep, Option.bind_some, hs', Option.map_some]
      rfl
    | false =>
      refine ⟨s₁, ?_⟩
      rw [List.map_cons, Run.exec, hstep, Option.bind_some, exec_lost (hnext.trans hcontinuous)]
      rfl

end GpsListener

/-- Of the fixes that a receiver sends, the user is called back with every one, once and in order, when listening
is continuous, and else with the first; what it is given shows the moment of the fix. -/
theorem fixes_called_back (continuousMode : Bool) (fixes : List GpsFix) :
    ∃ s, Run.exec GpsListener.receive (GpsListener.boot.listen continuousMode) (fixes.map GpsFix.text) =
        some (s, (if continuousMode then fixes else fixes.take 1).map GpsFix.data) ∧
      ∀ f ∈ fixes, TimeLocation.Shows f.data f.moment := by
  have hquiet : (GpsListener.boot.listen continuousMode).Quiet :=
    ⟨List.length_replicate, fun hmem => absurd (List.eq_of_mem_replicate (List.mem_of_mem_drop hmem)) (by decide)⟩
  obtain ⟨s, hs⟩ := hquiet.exec rfl fixes
  exact ⟨s, hs, fun f _ => f.shows⟩

end Signpost
