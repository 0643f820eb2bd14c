/-
JSON as a script reads it: the text is UTF-16, a number is kept as the decimal
it is written as.

The text is first cut into tokens, then the tokens are read with a stack of the
arrays and objects that are open.

Nothing here prints JSON. What a parser takes of a text is all that its users
look at, and a text that is no JSON has no value.
-/
import Mathlib.Algebra.Group.Nat.Defs
import Signpost.Lib.Utf16

namespace Lib

open Utf16

inductive Json
  | null
  | bool (b : Bool)
  | num (negative : Bool) (mantissa : Nat) (exponent : Int)
  | str (s : List UInt16)
  | arr (xs : List Json)
  | obj (fields : List (List UInt16 × Json))

namespace Json

/-- A field of an object; of two with a name it is the last. -/
def get (name : String) : Json → Option Json
  | obj fields => (fields.reverse.find? fun f => f.1 == ascii name).map (·.2)
  | _ => none

/-- The value of a condition. A number is false when it is rounded to zero. -/
def Truthy : Json → Prop
  | null => False
  | bool b => b = true
  | num _ m e => if 0 ≤ e then m ≠ 0 else 10 ^ (-e).toNat < m * 2 ^ 1075
  | str s => s ≠ []
  | arr _ => True
  | obj _ => True

instance : DecidablePred Truthy
  | null => instDecidableFalse
  | bool b => inferInstanceAs (Decidable (b = true))
  | num _ m e => inferInstanceAs (Decidable (if 0 ≤ e then m ≠ 0 else 10 ^ (-e).toNat < m * 2 ^ 1075))
  | str s => inferInstanceAs (Decidable (s ≠ []))
  | arr _ => instDecidableTrue
  | obj _ => instDecidableTrue

/-! ## Tokens -/

inductive Token
  | mark (u : UInt16)
  | text (s : List UInt16)
  | word (w : List UInt16)

/-- Where in a token the text is. A word is what no other token and no space is
part of. -/
inductive Lexer
  | start
  | word (w : List UInt16)
  | text (s : List UInt16)
  | escape (s : List UInt16)
  | hex (s : List UInt16) (left value : Nat)

def isSpace (u : UInt16) : Bool := u = 0x20 ∨ u = 0x0A ∨ u = 0x0D ∨ u = 0x09

def isMark (u : UInt16) : Bool := u ∈ ascii "[]\x7b\x7d:,"

def hexDigit (u : UInt16) : Option Nat :=
  let n := u.toNat
  if 48 ≤ n ∧ n ≤ 57 then some (n - 48)
  else if 65 ≤ n ∧ n ≤ 70 then some (n - 65 + 10)
  else if 97 ≤ n ∧ n ≤ 102 then some (n - 97 + 10)
  else none

def escaped (u : UInt16) : Option UInt16 :=
  if u = 0x22 ∨ u = 0x5C ∨ u = 0x2F then some u
  else if u = 0x62 then some 0x08
  else if u = 0x66 then some 0x0C
  else if u = 0x6E then some 0x0A
  else if u = 0x72 then some 0x0D
  else if u = 0x74 then some 0x09
  else none

/-- A unit between tokens, behind these. -/
def lexStart (done : List Token) (u : UInt16) : List Token × Lexer :=
  if isSpace u then (done, .start)
  else if isMark u then (done ++ [.mark u], .start)
  else if u = 0x22 then (done, .text [])
  else (done, .word [u])

def lex : Lexer → List UInt16 → Option (List Token)
  | .start, [] => some []
  | .word w, [] => some [.word w]
  | .text _, [] => none
  | .escape _, [] => none
  | .hex .., [] => none
  | .start, u :: rest => (lex (lexStart [] u).2 rest).map ((lexStart [] u).1 ++ ·)
  | .word w, u :: rest =>
    if isSpace u ∨ isMark u ∨ u = 0x22 then
      (lex (lexStart [.word w] u).2 rest).map ((lexStart [.word w] u).1 ++ ·)
    else lex (.word (w ++ [u])) rest
  | .text s, u :: rest =>
    if u = 0x22 then (lex .start rest).map (.text s :: ·)
    else if u = 0x5C then lex (.escape s) rest
    else if u.toNat < 0x20 then none
    else lex (.text (s ++ [u])) rest
  | .escape s, u :: rest =>
    if u = 0x75 then lex (.hex s 4 0) rest
    else (escaped u).bind fun c => lex (.text (s ++ [c])) rest
  | .hex s left value, u :: rest =>
    (hexDigit u).bind fun d =>
      if left = 1 then lex (.text (s ++ [UInt16.ofNat (value * 16 + d)])) rest
      else lex (.hex s (left - 1) (value * 16 + d)) rest

/-! ## Words -/

def isDigit (u : UInt16) : Bool := 48 ≤ u.toNat ∧ u.toNat ≤ 57

def ofDecimal (digits : List UInt16) : Nat := digits.foldl (fun n u => n * 10 + (u.toNat - 48)) 0

/-- The part of a number from its exponent on. -/
def exponent : List UInt16 → Option Int
  | [] => some 0
  | e :: rest =>
    if e = 0x65 ∨ e = 0x45 then
      let negative := rest.head? = some 0x2D
      let digits := if negative ∨ rest.head? = some 0x2B then rest.tail else rest
      if digits ≠ [] ∧ digits.all isDigit then
        some (if negative then -(ofDecimal digits : Int) else ofDecimal digits)
      else none
    else none

def number (w : List UInt16) : Option Json :=
  let negative := w.head? = some 0x2D
  let (whole, rest) := (if negative then w.tail else w).span isDigit
  if whole = [] ∨ whole.head? = some 48 ∧ whole.length ≠ 1 then none
  else
    match rest with
    | 0x2E :: rest =>
      let (fraction, rest) := rest.span isDigit
      if fraction = [] then none
      else (exponent rest).map fun e => num negative (ofDecimal (whole ++ fraction)) (e - fraction.length)
    | rest => (exponent rest).map fun e => num negative (ofDecimal whole) e

def ofWord (w : List UInt16) : Option Json :=
  if w = ascii "null" then some null
  else if w = ascii "true" then some (bool true)
  else if w = ascii "false" then some (bool false)
  else number w

/-! ## Values -/

/-- An array or an object that is open: what it has so far. -/
inductive Frame
  | arr (xs : List Json)
  | obj (fields : List (List UInt16 × Json)) (name : List UInt16)

/-- What may come next, inside these frames. -/
inductive Parser
  | value (frames : List Frame)
  /-- A value or the end, behind the start of an array. -/
  | first (frames : List Frame)
  /-- A comma or the end, behind a value in an array. -/
  | element (xs : List Json) (frames : List Frame)
  /-- A name or the end, behind the start of an object. -/
  | firstName (frames : List Frame)
  | name (fields : List (List UInt16 × Json)) (frames : List Frame)
  | colon (fields : List (List UInt16 × Json)) (name : List UInt16) (frames : List Frame)
  /-- A comma or the end, behind a value in an object. -/
  | member (fields : List (List UInt16 × Json)) (frames : List Frame)
  | done (v : Json)

def complete (v : Json) : List Frame → Parser
  | [] => .done v
  | .arr xs :: frames => .element (xs ++ [v]) frames
  | .obj fields name :: frames => .member (fields ++ [(name, v)]) frames

def beginValue (frames : List Frame) : Token → Option Parser
  | .mark u => if u = 0x5B then some (.first frames) else if u = 0x7B then some (.firstName frames)
      else none
  | .text s => some (complete (str s) frames)
  | .word w => (ofWord w).map (complete · frames)

def parseToken : Parser → Token → Option Parser
  | .value frames, t => beginValue frames t
  | .first frames, .mark u =>
    if u = 0x5D then some (complete (arr []) frames) else beginValue (.arr [] :: frames) (.mark u)
  | .first frames, t => beginValue (.arr [] :: frames) t
  | .element xs frames, .mark u =>
    if u = 0x2C then some (.value (.arr xs :: frames))
    else if u = 0x5D then some (complete (arr xs) frames)
    else none
  | .firstName frames, .mark u => if u = 0x7D then some (complete (obj []) frames) else none
  | .firstName frames, .text s => some (.colon [] s frames)
  | .name fields frames, .text s => some (.colon fields s frames)
  | .colon fields name frames, .mark u => if u = 0x3A then some (.value (.obj fields name :: frames))
      else none
  | .member fields frames, .mark u =>
    if u = 0x2C then some (.name fields frames)
    else if u = 0x7D then some (complete (obj fields) frames)
    else none
  | _, _ => none

def parseTokens : Parser → List Token → Option Json
  | .done v, [] => some v
  | _, [] => none
  | p, t :: ts => (parseToken p t).bind (parseTokens · ts)

/-- The value of a text, if it is one. -/
def parse (s : List UInt16) : Option Json := (lex .start s).bind (parseTokens (.value []))

end Json

end Lib
