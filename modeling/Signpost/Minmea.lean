/-
The parser of NMEA sentences (`minmea.c`), as far as the GPS library uses it: the
check of a sentence, the scanner with its formats, and two kinds of sentences.

A string is the bytes before its zero. `int` and `int_least32_t` have 32 bits, and
what does not fit wraps.

The scanner is a loop over the format that keeps a place in the sentence. Each
letter of the format has a function of its own, so that the parsers of the
sentences are this loop with their formats.
-/
import Signpost.Strings

namespace Signpost

open Lib

/-! ## Characters -/

def chr (c : Char) : UInt8 := UInt8.ofNat c.toNat

/-- What a variable of type `int32_t` has of a number. -/
def int32 (x : Int) : Int := x.bmod (2 ^ 32)

def hex2int (c : UInt8) : Option Nat :=
  if chr '0' ≤ c ∧ c ≤ chr '9' then some (c.toNat - 48)
  else if chr 'A' ≤ c ∧ c ≤ chr 'F' then some (c.toNat - 65 + 10)
  else if chr 'a' ≤ c ∧ c ≤ chr 'f' then some (c.toNat - 97 + 10)
  else none

def signpostIsprint (c : UInt8) : Bool := 0x1f < c && c < 0x7f

def signpostIsdigit (c : UInt8) : Bool := 48 ≤ c && c ≤ 57

def minmeaIsfield (c : UInt8) : Bool := signpostIsprint c && c ≠ chr ',' && c ≠ chr '*'

def digitsValue (digits : Bytes) : Nat := digits.foldl (fun n c => 10 * n + (c.toNat - 48)) 0

def isspace (c : UInt8) : Bool := c = chr ' ' || 9 ≤ c && c ≤ 13

/-- `strtol` in base 10, where a `long` has 32 bits, and what follows the number. -/
def strtol (s : Bytes) : Int × Bytes :=
  let body := s.dropWhile isspace
  let signed := body.headD 0 = chr '-' ∨ body.headD 0 = chr '+'
  let rest := if signed then body.tail else body
  let digits := rest.takeWhile signpostIsdigit
  let value : Int := if body.headD 0 = chr '-' then -digitsValue digits else digitsValue digits
  if digits = [] then (0, s) else (max (-2 ^ 31) (min value (2 ^ 31 - 1)), rest.drop digits.length)

/-! ## The check -/

def minmeaMaxLength : Nat := 80

def minmeaCheck (sentence : Bytes) (strict : Bool) : Bool :=
  let body := sentence.tail.takeWhile fun c => c ≠ chr '*' && signpostIsprint c
  let checksum := body.foldl (· ^^^ ·) 0
  let rest := sentence.tail.drop body.length
  -- The only stuff allowed at the end, in strict mode, is a newline.
  let ends (rest : Bytes) : Bool :=
    !(strict && cstr rest ≠ [] && cstr rest ≠ [0x0A] && cstr rest ≠ [0x0D, 0x0A])
  if (cstr sentence).length > minmeaMaxLength + 3 then false
  else if sentence.headD 0 ≠ chr '$' then false
  else if rest.headD 0 = chr '*' then
    match hex2int (rest.getD 1 0), hex2int (rest.getD 2 0) with
    | some upper, some lower => checksum.toNat = 16 * upper + lower && ends (rest.drop 3)
    | _, _ => false
  else !strict && ends rest

/-! ## The scanner -/

structure MinmeaFloat where
  value : Int
  scale : Int
  deriving DecidableEq

structure MinmeaDate where
  day : Int
  month : Int
  year : Int
  deriving DecidableEq

structure MinmeaTime where
  hours : Int
  minutes : Int
  seconds : Int
  microseconds : Int
  deriving DecidableEq

inductive Scanned
  | char (c : UInt8)
  | int (i : Int)
  | float (f : MinmeaFloat)
  | str (s : Bytes)
  | date (d : MinmeaDate)
  | time (t : MinmeaTime)
  deriving DecidableEq

/-- The variables of the loop over a fractional value. -/
structure FloatScan where
  sign : Int
  value : Int
  scale : Int

/-- The loop over a fractional value; `none` is a parse error. -/
def scanFloatLoop : Bytes → FloatScan → Option FloatScan
  | [], st => some st
  | c :: field, st =>
    if !minmeaIsfield c then some st
    else if c = chr '+' ∧ st.sign = 0 ∧ st.value = -1 then scanFloatLoop field { st with sign := 1 }
    else if c = chr '-' ∧ st.sign = 0 ∧ st.value = -1 then scanFloatLoop field { st with sign := -1 }
    else if signpostIsdigit c then
      let digit : Int := c.toNat - 48
      let value := if st.value = -1 then 0 else st.value
      if value > (2 ^ 31 - 1 - digit) / 10 then
        -- Extra precision is truncated, but an overflow is an error.
        if st.scale ≠ 0 then some { st with value } else none
      else
        let scale := if st.scale ≠ 0 then int32 (10 * st.scale) else st.scale
        scanFloatLoop field { st with value := 10 * value + digit, scale }
    else if c = chr '.' ∧ st.scale = 0 then scanFloatLoop field { st with scale := 1 }
    else if c = chr ' ' then
      if st.sign ≠ 0 ∨ st.value ≠ -1 ∨ st.scale ≠ 0 then none else scanFloatLoop field st
    else none

/-- A fractional value with its scale. -/
def scanFloat (field : Option Bytes) : Option MinmeaFloat :=
  (scanFloatLoop (field.getD []) ⟨0, -1, 0⟩).bind fun st =>
    if (st.sign ≠ 0 ∨ st.scale ≠ 0) ∧ st.value = -1 then none
    else
      let value := if st.value = -1 then 0 else st.value
      let scale := if st.value = -1 then 0 else if st.scale = 0 then 1 else st.scale
      some ⟨if st.sign ≠ 0 then value * st.sign else value, scale⟩

def scanDirection (field : Option Bytes) : Option Int :=
  let c := (field.getD []).headD 0
  if minmeaIsfield c then
    if c = chr 'N' ∨ c = chr 'E' then some 1 else if c = chr 'S' ∨ c = chr 'W' then some (-1) else none
  else some 0

/-- A time: six digits, and microseconds. -/
def scanTime (field : Option Bytes) : Option MinmeaTime :=
  let s := field.getD []
  if minmeaIsfield (s.headD 0) then
    if ((List.range 6).all fun f => signpostIsdigit (s.getD f 0)) then
      let fraction := ((s.drop 7).take 6).takeWhile signpostIsdigit
      let microseconds : Int :=
        if s.getD 6 0 = chr '.' then digitsValue fraction * 10 ^ (6 - fraction.length) else 0
      some ⟨digitsValue (s.take 2), digitsValue ((s.drop 2).take 2), digitsValue ((s.drop 4).take 2), microseconds⟩
    else none
  else some ⟨-1, -1, -1, -1⟩

def scanDate (field : Option Bytes) : Option MinmeaDate :=
  let s := field.getD []
  if minmeaIsfield (s.headD 0) then
    if ((List.range 6).all fun f => signpostIsdigit (s.getD f 0)) then
      some ⟨digitsValue (s.take 2), digitsValue ((s.drop 2).take 2), digitsValue ((s.drop 4).take 2)⟩
    else none
  else some ⟨-1, -1, -1⟩

/-- The talker and the type of a sentence. -/
def scanType (field : Option Bytes) : Option Bytes :=
  field.bind fun s =>
    if s.headD 0 = chr '$' ∧ ((List.range 5).all fun f => minmeaIsfield (s.getD (1 + f) 0)) = true then
      some ((s.drop 1).take 5)
    else none

def scanInteger (field : Option Bytes) : Option Int :=
  match field with
  | none => some 0
  | some s => if minmeaIsfield ((strtol s).2.headD 0) then none else some (strtol s).1

def minmeaScanField (type : Char) (field : Option Bytes) : Option (List Scanned) :=
  match type with
  | 'c' =>
    let c := (field.getD []).headD 0
    some [.char (if minmeaIsfield c then c else 0)]
  | 'd' => (scanDirection field).map fun i => [.int i]
  | 'f' => (scanFloat field).map fun f => [.float f]
  | 'i' => (scanInteger field).map fun i => [.int i]
  | 's' => some [.str ((field.getD []).takeWhile minmeaIsfield)]
  | 't' => (scanType field).map fun s => [.str s]
  | 'D' => (scanDate field).map fun d => [.date d]
  | 'T' => (scanTime field).map fun t => [.time t]
  | '_' => some []
  | _ => none

/-- `next_field`: `sentence` and `field` then. -/
def nextField (sentence : Bytes) : Bytes × Option Bytes :=
  let rest := sentence.dropWhile minmeaIsfield
  if rest.headD 0 = chr ',' then (rest.tail, some rest.tail) else (rest, none)

def minmeaScanFrom : List Char → Bool → Bytes → Option Bytes → Option (List Scanned)
  | [], _, _, _ => some []
  | type :: format, optional, sentence, field =>
    if type = ';' then minmeaScanFrom format true sentence field
    else if field.isNone && !optional then none
    else
      (minmeaScanField type field).bind fun out =>
        let next := nextField sentence
        (minmeaScanFrom format optional next.1 next.2).map (out ++ ·)

def minmeaScan (sentence : Bytes) (format : String) : Option (List Scanned) :=
  minmeaScanFrom format.toList false sentence (some sentence)

/-! ## Sentences -/

inductive MinmeaSentenceId
  | invalid
  | unknown
  | rmc
  | gga
  | gsa
  | gll
  | gst
  | gsv
  | vtg
  deriving DecidableEq

structure MinmeaSentenceRmc where
  time : MinmeaTime
  valid : Bool
  latitude : MinmeaFloat
  longitude : MinmeaFloat
  speed : MinmeaFloat
  course : MinmeaFloat
  date : MinmeaDate
  variation : MinmeaFloat

structure MinmeaSentenceGsa where
  mode : UInt8
  fixType : Int
  sats : List Int
  pdop : MinmeaFloat
  hdop : MinmeaFloat
  vdop : MinmeaFloat

def minmeaSentenceId (sentence : Bytes) (strict : Bool) : MinmeaSentenceId :=
  if !minmeaCheck sentence strict then .invalid
  else
    match minmeaScan sentence "t" with
    | some [.str type] =>
      let id := type.drop 2
      if id = Controller.ofChars "RMC" then .rmc
      else if id = Controller.ofChars "GGA" then .gga
      else if id = Controller.ofChars "GSA" then .gsa
      else if id = Controller.ofChars "GLL" then .gll
      else if id = Controller.ofChars "GST" then .gst
      else if id = Controller.ofChars "GSV" then .gsv
      else if id = Controller.ofChars "VTG" then .vtg
      else .unknown
    | _ => .invalid

def minmeaParseRmc (sentence : Bytes) : Option MinmeaSentenceRmc :=
  match minmeaScan sentence "tTcfdfdffDfd" with
  | some [.str type, .time time, .char validity, .float latitude, .int latitudeDirection, .float longitude,
      .int longitudeDirection, .float speed, .float course, .date date, .float variation, .int variationDirection] =>
    if type.drop 2 = Controller.ofChars "RMC" then
      some {
        time
        valid := validity = chr 'A'
        latitude := { latitude with value := latitude.value * latitudeDirection }
        longitude := { longitude with value := longitude.value * longitudeDirection }
        speed
        course
        date
        variation := { variation with value := variation.value * variationDirection } }
    else none
  | _ => none

def minmeaParseGsa (sentence : Bytes) : Option MinmeaSentenceGsa :=
  match minmeaScan sentence "tciiiiiiiiiiiiifff" with
  | some [.str type, .char mode, .int fixType, .int s₀, .int s₁, .int s₂, .int s₃, .int s₄, .int s₅, .int s₆,
      .int s₇, .int s₈, .int s₉, .int s₁₀, .int s₁₁, .float pdop, .float hdop, .float vdop] =>
    if type.drop 2 = Controller.ofChars "GSA" then
      some ⟨mode, fixType, [s₀, s₁, s₂, s₃, s₄, s₅, s₆, s₇, s₈, s₉, s₁₀, s₁₁], pdop, hdop, vdop⟩
    else none
  | _ => none

end Signpost
