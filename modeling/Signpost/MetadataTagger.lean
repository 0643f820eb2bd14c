/-
The metadata tagger (`metadata-tagger.js`): a device's position is the average of the
fixes that are kept of it.

The numbers of the language and the geohash library are given; either function of the
library may throw, which ends the packet.

What is kept of a device is a function of the fixes since it was restarted, by induction over the
run. A fix is put at the end, and what is too much is cut off at the end, so after fifty of them
nothing new is kept.
-/
import Mathlib.Data.List.DropRight
import Mathlib.Logic.Function.Basic
import Signpost.Lib.Run
import Signpost.Packet

namespace Signpost

open Lib

namespace MetadataTagger

/-! ## The tagger -/

/-- Numbers, and `latlon-geohash`. -/
structure Environment (Number Hash : Type) where
  add : Number → Number → Number
  divide : Number → Nat → Number
  /-- Divided by `10000*100.0`. -/
  degrees : Int → Number
  zero : Number
  nan : Number
  encode : Number → Number → Nat → Option Hash
  neighbours : Hash → Option (List Hash)

structure Window (Number : Type) where
  lat : List Number
  lon : List Number
  deriving DecidableEq

/-- `get_hash.hashes` -/
abbrev Hashes (Device Number : Type) := Device → Option (Window Number)

inductive Accepted (Device Number : Type)
  /-- It is the first, or it is far off and the others are forgotten. -/
  | restarted (addr : Device) (fix : Number × Number)
  /-- It is near the others. -/
  | averaged (addr : Device) (fix : Number × Number)

/-- What becomes of a packet: the hash it is tagged with, if nothing throws. -/
structure Tagged (Device Number Hash : Type) where
  hashes : Hashes Device Number
  accepted : List (Accepted Device Number)
  hash : Option Hash

variable {Device Number Hash : Type} [DecidableEq Device] [DecidableEq Hash] (env : Environment Number Hash)

/-- The sum of an array over its length; of an empty one, `reduce` throws. -/
def average : List Number → Option Number
  | [] => none
  | x :: xs =>
    let sum := xs.foldl (fun previous current => env.add current previous) x
    some (env.divide sum (x :: xs).length)

/-- The average position, with so many characters. -/
def averageHash (w : Window Number) (precision : Nat) : Option Hash :=
  (average env w.lat).bind fun latav => (average env w.lon).bind fun lonav => env.encode latav lonav precision

/-- `pop` on an array that is too long. -/
def trim (xs : List Number) : List Number := if xs.length > 50 then xs.dropLast else xs

/-- The hash of a new fix is the current one or a neighbor of it; `none` if that throws. -/
def neighbor (w : Window Number) (lat lon : Number) : Option Bool :=
  (averageHash env w 7).bind fun curhash =>
    (env.encode lat lon 7).bind fun newhash =>
      (env.neighbours curhash).map fun neighborhash => neighborhash.any fun key => key = newhash ∨ curhash = newhash

/-- `get_hash` -/
def getHash (hashes : Hashes Device Number) (addr : Device) : Option (Number × Number) → Tagged Device Number Hash
  | some (lat, lon) =>
    match hashes addr with
    | none => ⟨Function.update hashes addr (some ⟨[lat], [lon]⟩), [.restarted addr (lat, lon)], env.encode lat lon 11⟩
    | some w =>
      match neighbor env w lat lon with
      | none => ⟨hashes, [], none⟩
      | some true =>
        let w := ⟨trim (w.lat ++ [lat]), trim (w.lon ++ [lon])⟩
        ⟨Function.update hashes addr (some w), [.averaged addr (lat, lon)], averageHash env w 11⟩
      | some false =>
        let w := ⟨[lat], [lon]⟩
        ⟨Function.update hashes addr (some w), [.restarted addr (lat, lon)], averageHash env w 11⟩
  | none =>
    match hashes addr with
    | none => ⟨hashes, [], env.encode env.zero env.zero 11⟩
    | some w => ⟨hashes, [], averageHash env w 11⟩

/-- A packet, with the bytes of its data. -/
structure Packet (Device : Type) where
  topic : String
  deviceId : Device
  data : Bytes

/-- A coordinate in four bytes; with one missing it is no number. -/
def coordinate (data : Bytes) (offset : Nat) : Number :=
  match data.drop offset with
  | a :: b :: c :: d :: _ =>
    env.degrees ((a.toNat * 2 ^ 24 + b.toNat * 2 ^ 16 + c.toNat * 2 ^ 8 + d.toNat : Int).bmod (2 ^ 32))
  | _ => env.nan

/-- `add_geohash` -/
def addGeohash (hashes : Hashes Device Number) (buf : Packet Device) : Tagged Device Number Hash :=
  if buf.topic = "signpost-preproc/signpost/control/gps" ∨ buf.topic = "signpost-preproc/lab11/gps" then
    getHash env hashes buf.deviceId (some (coordinate env buf.data 7, coordinate env buf.data 11))
  else getHash env hashes buf.deviceId none

def Step (hashes : Hashes Device Number) (buf : Packet Device) (hashes' : Hashes Device Number)
    (accepted : List (Accepted Device Number)) : Prop :=
  hashes' = (addGeohash env hashes buf).hashes ∧ accepted = (addGeohash env hashes buf).accepted

/-! ## What is kept -/

/-- The fixes of a device since it was restarted. -/
def fixes (addr : Device) (os : List (Accepted Device Number)) : List (Number × Number) :=
  os.foldl (fun fs a =>
    match a with
    | .restarted addr' fix => if addr' = addr then [fix] else fs
    | .averaged addr' fix => if addr' = addr then fs ++ [fix] else fs) []

/-- These fixes in two arrays, if there are any. -/
def kept : List (Number × Number) → Option (Window Number)
  | [] => none
  | fix :: fs => some ⟨(fix :: fs).map Prod.fst, (fix :: fs).map Prod.snd⟩

theorem kept_of_ne_nil {fs : List (Number × Number)} (h : fs ≠ []) :
    kept fs = some ⟨fs.map Prod.fst, fs.map Prod.snd⟩ := by
  cases fs with
  | nil => exact absurd rfl h
  | cons => rfl

theorem kept_injective {fs fs' : List (Number × Number)} (h : kept fs = kept fs') : fs = fs' := by
  cases fs with
  | nil =>
    cases fs' with
    | nil => rfl
    | cons => cases h
  | cons fix fs =>
    cases fs' with
    | nil => cases h
    | cons fix' fs' =>
      obtain ⟨hlat, hlon⟩ := Window.mk.inj (Option.some.inj h)
      rw [← List.zip_unzip (fix :: fs), ← List.zip_unzip (fix' :: fs'), List.unzip_eq_map, List.unzip_eq_map, hlat,
    hlon]

section
variable {env} {hashes hashes' : Hashes Device Number} {os accepted : List (Accepted Device Number)} {addr : Device}
  {buf : Packet Device}

theorem trim_take (xs : List Number) (x : Number) : trim (xs.take 50 ++ [x]) = (xs ++ [x]).take 50 := by
  rw [trim]
  rcases Nat.lt_or_ge xs.length 50 with hlt | hge
  · rw [List.take_of_length_le (Nat.le_of_lt hlt), if_neg (by simp; omega), List.take_of_length_le (by simp; omega)]
  · rw [if_pos (by simp; omega), List.dropLast_concat, List.take_append_of_le_length hge]

theorem fixes_restarted (os : List (Accepted Device Number)) (addr addr' : Device) (fix : Number × Number) :
    fixes addr (os ++ [.restarted addr' fix]) = if addr' = addr then [fix] else fixes addr os := by
  rw [fixes, List.foldl_append]
  rfl

theorem fixes_averaged (os : List (Accepted Device Number)) (addr addr' : Device) (fix : Number × Number) :
    fixes addr (os ++ [.averaged addr' fix]) = if addr' = addr then fixes addr os ++ [fix] else fixes addr os := by
  rw [fixes, List.foldl_append]
  rfl

/-- The first fifty fixes are kept, of each device. -/
def FirstKept (os : List (Accepted Device Number)) (hashes : Hashes Device Number) : Prop :=
  ∀ addr, hashes addr = kept ((fixes addr os).take 50)

theorem FirstKept.restarted (h : FirstKept os hashes) (addr : Device) (lat lon : Number) :
    FirstKept (os ++ [.restarted addr (lat, lon)]) (Function.update hashes addr (some ⟨[lat], [lon]⟩)) := by
  intro addr'
  rw [fixes_restarted]
  by_cases haddr : addr = addr'
  · subst haddr
    rw [Function.update_self, if_pos rfl]
    rfl
  · rw [Function.update_of_ne (Ne.symm haddr), if_neg haddr]
    exact h addr'

theorem FirstKept.averaged (h : FirstKept os hashes) {addr : Device} {w : Window Number} (hw : hashes addr = some w)
    (lat lon : Number) : FirstKept (os ++ [.averaged addr (lat, lon)])
      (Function.update hashes addr (some ⟨trim (w.lat ++ [lat]), trim (w.lon ++ [lon])⟩)) := by
  intro addr'
  rw [fixes_averaged]
  by_cases haddr : addr = addr'
  · subst haddr
    have hkept := h addr
    rw [hw] at hkept
    have hne : (fixes addr os).take 50 ≠ [] := by
      intro hnil
      rw [hnil] at hkept
      cases hkept
    rw [kept_of_ne_nil hne] at hkept
    obtain rfl := Option.some.inj hkept
    have hnext : (fixes addr os ++ [(lat, lon)]).take 50 ≠ [] := by simp
    rw [Function.update_self, if_pos rfl, kept_of_ne_nil hnext, List.map_take, List.map_take, trim_take, trim_take,
      List.map_take, List.map_take, List.map_append, List.map_append]
    rfl
  · rw [Function.update_of_ne (Ne.symm haddr), if_neg haddr]
    exact h addr'

variable (env) in
theorem FirstKept.getHash (h : FirstKept os hashes) (addr : Device) (fix : Option (Number × Number)) :
    FirstKept (os ++ (getHash env hashes addr fix).accepted) (getHash env hashes addr fix).hashes := by
  have hsame : FirstKept (os ++ []) hashes := by rwa [List.append_nil]
  cases fix with
  | none =>
    rw [MetadataTagger.getHash]
    split <;> exact hsame
  | some fix =>
    obtain ⟨lat, lon⟩ := fix
    rw [MetadataTagger.getHash]
    split
    · exact h.restarted addr lat lon
    · next w hw =>
      split
      · exact hsame
      · exact h.averaged hw lat lon
      · exact h.restarted addr lat lon

theorem FirstKept.step (h : FirstKept os hashes) (hstep : Step env hashes buf hashes' accepted) :
    FirstKept (os ++ accepted) hashes' := by
  obtain ⟨rfl, rfl⟩ := hstep
  rw [addGeohash]
  split
  · exact h.getHash env _ _
  · exact h.getHash env _ _

end

/-- In every run, what is kept of a device are the last fifty fixes since it was
restarted exactly if there are no more, or the first fifty are the same as the last. -/
theorem recent_kept_iff {hashes : Hashes Device Number} {bufs : List (Packet Device)}
    {os : List (Accepted Device Number)} (hrun : Run (Step env) (fun _ => none) bufs hashes os) (addr : Device) :
    hashes addr = kept ((fixes addr os).rtake 50) ↔
      (fixes addr os).length ≤ 50 ∨ (fixes addr os).take 50 = (fixes addr os).rtake 50 := by
  have hfirst : FirstKept os hashes := hrun.history FirstKept (fun h hs => h.step hs) fun addr => rfl
  rw [hfirst addr]
  constructor
  · exact fun h => .inr (kept_injective h)
  · rintro (hle | heq)
    · rw [List.take_of_length_le hle, List.rtake, Nat.sub_eq_zero_of_le hle, List.drop_zero]
    · rw [heq]

section

/-- A grid of cells a thousandth of a degree wide, in place of geohashes, and numbers in
millionths of a degree. -/
def gridEnvironment : Environment Int (Int × Int) where
  add x y := x + y
  divide x n := x / n
  degrees x := x
  zero := 0
  nan := 0
  encode lat lon precision := some (lat / (if precision = 7 then 1000 else 1), lon / if precision = 7 then 1000 else 1)
  neighbours hash := some [(hash.1 + 1, hash.2), (hash.1, hash.2 + 1), (hash.1 - 1, hash.2), (hash.1, hash.2 - 1)]

/-- A packet of the GPS, so many millionths of a degree north of 0. -/
def gpsPacket (lat : UInt8) : Packet Unit :=
  ⟨"signpost-preproc/lab11/gps", (), [0, 1, 2, 3, 4, 5, 6, 0, 0, 0, lat, 0, 0, 0, 0]⟩

/-- A device that moves north, a millionth of a degree at a time. -/
def movingNorth (n : Nat) : List (Packet Unit) := (List.range n).map fun i => gpsPacket (UInt8.ofNat i)

/-- The steps with these, as a function. -/
def gridStep (hashes : Hashes Unit Int) (buf : Packet Unit) : Option (Hashes Unit Int × List (Accepted Unit Int)) :=
  some ((addGeohash gridEnvironment hashes buf).hashes, (addGeohash gridEnvironment hashes buf).accepted)

theorem run_of_gridStep {bufs : List (Packet Unit)} {hashes : Hashes Unit Int} {os : List (Accepted Unit Int)}
    (h : Run.exec gridStep (fun _ => none) bufs = some (hashes, os)) :
    Run (Step gridEnvironment) (fun _ => none) bufs hashes os := by
  refine (Run.of_exec h).mono fun hs => ?_
  obtain ⟨rfl, rfl⟩ := Prod.mk.inj (Option.some.inj hs)
  exact ⟨rfl, rfl⟩

theorem recent_kept_iff_three : ∃ hashes os,
    Run (Step gridEnvironment) (fun _ => none) (movingNorth 3) hashes os ∧
      (fixes () os).length = 3 ∧ hashes () = kept ((fixes () os).rtake 50) := by
  have hexec : (Run.exec gridStep (fun _ => none) (movingNorth 3)).any (fun r => (fixes () r.2).length = 3) = true := by
    decide +kernel
  obtain ⟨⟨hashes, os⟩, hexec, h⟩ := (Option.any_eq_true _ _).mp hexec
  have hrun := run_of_gridStep hexec
  have hlength : (fixes () os).length = 3 := of_decide_eq_true h
  exact ⟨hashes, os, hrun, hlength, (recent_kept_iff gridEnvironment hrun ()).mpr (.inl (by omega))⟩

/-- Of fifty-one fixes the last is not kept, and the first is. -/
theorem last_fix_dropped : ∃ hashes os, Run (Step gridEnvironment) (fun _ => none) (movingNorth 51) hashes os ∧
    (fixes () os).length = 51 ∧ (50, 0) ∈ fixes () os ∧ hashes () ≠ kept ((fixes () os).rtake 50) := by
  have hexec : (Run.exec gridStep (fun _ => none) (movingNorth 51)).any (fun r =>
      (fixes () r.2).length = 51 ∧ (50, 0) ∈ fixes () r.2 ∧ r.1 () ≠ kept ((fixes () r.2).rtake 50)) = true := by
    decide +kernel
  obtain ⟨⟨hashes, os⟩, hexec, h⟩ := (Option.any_eq_true _ _).mp hexec
  exact ⟨hashes, os, run_of_gridStep hexec, of_decide_eq_true h⟩

end

end MetadataTagger

end Signpost
