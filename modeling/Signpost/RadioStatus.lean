/-
The status packet of the radio, and what the server takes from it (`parse` of
`packet-parser.js`).

A buffer that is too short for a read makes the parser throw. Names of logs are
the bytes they are in the packet. The parser reads one byte too early, so that a
module's count is read as an address and the next module's address as a count:
`decodes_iff` says what it takes from the status data, and `coincides_iff` that this is
what the radio meant only if no module has sent a packet and nothing is queued.
-/
import Signpost.RadioReport
import Signpost.Lib.BigEndian

namespace Signpost

open Lib

namespace RadioStatus

/-! ## The server -/

/-- The names in `packets_sent`. -/
inductive Sender
  | controller
  | rfSpectrum
  | ambientSensing
  | audioSpectrum
  | microwaveRadar
  | ucsdAirQuality
  | radioStatus
  deriving DecidableEq

/-- The message of the device `signpost_radio`. -/
structure StatusMessage where
  packetsSent : Sender → Nat
  packetsDelayedForMuling : List (Bytes × Nat)
  radioQueueLength : Nat

/-- The cases of the `switch`. -/
def caseOf (address : Nat) : Option Sender :=
  if address = 0x20 then some .controller
  else if address = 0x22 then some .radioStatus
  else if address = 0x32 then some .ambientSensing
  else if address = 0x33 then some .audioSpectrum
  else if address = 0x34 then some .microwaveRadar
  else if address = 0x34 then some .ucsdAirQuality
  else if address = 0x36 then some .rfSpectrum
  else none

/-- The loop over `num_mods`, with so many turns left, from `j` on. -/
def countModules (buf : Bytes) : Nat → Nat → (Sender → Nat) → Option (Sender → Nat)
  | 0, _, sent => some sent
  | k + 1, j, sent => do
    let address ← readUInt8 buf (1 + j * 2)
    match caseOf address with
    | some s =>
      let count ← readUInt8 buf (1 + j * 2 + 1)
      countModules buf k (j + 1) (Function.update sent s count)
    | none => countModules buf k (j + 1) sent

/-- The loop over `num_stored`, from an index on. -/
def storedLogs (buf : Bytes) : Nat → Nat → Option (List (Bytes × Nat) × Nat)
  | 0, eventualIndex => some ([], eventualIndex)
  | k + 1, eventualIndex => do
    let logRemaining ← readUInt16BE buf eventualIndex
    let lognameLen ← readUInt8 buf (eventualIndex + 2)
    let logname := (buf.drop (eventualIndex + 3)).take lognameLen
    let rest ← storedLogs buf k (eventualIndex + 3 + lognameLen)
    some ((logname, logRemaining) :: rest.1, rest.2)

/-- The radio status branch of `parse`, which returns nothing of other message types. -/
def parseStatus (buf : Bytes) : Option (Option StatusMessage) := do
  let messageType ← readUInt8 buf 0
  if messageType = 0x01 then
    let numMods ← readUInt8 buf 1
    let packetsSent ← countModules buf numMods 0 fun _ => 0
    let queueSize ← readUInt8 buf (1 + numMods * 2)
    some (some ⟨packetsSent, [], queueSize⟩)
  else if messageType = 0x02 then
    let numMods ← readUInt8 buf 1
    let packetsSent ← countModules buf numMods 0 fun _ => 0
    let numStored ← readUInt8 buf (numMods * 2 + 2)
    let logs ← storedLogs buf numStored (numMods * 2 + 3)
    let queueSize ← readUInt8 buf logs.2
    some (some ⟨packetsSent, logs.1, queueSize⟩)
  else some none

/-! ## The status data -/

def moduleBytes (modules : List (UInt8 × UInt8)) : Bytes := modules.flatMap fun m => [m.1, m.2]

/-- The status data of modules with these addresses and counts, and of a queue. -/
def statusData (type : UInt8) (modules : List (UInt8 × UInt8)) (queueLength : UInt8) : Bytes :=
  type :: UInt8.ofNat modules.length :: moduleBytes modules ++ [queueLength]

section
variable {type queueLength : UInt8} {modules : List (UInt8 × UInt8)} {i : Nat}

theorem length_moduleBytes : (moduleBytes modules).length = 2 * modules.length := by
  induction modules with
  | nil => rfl
  | cons m ms ih =>
    rw [moduleBytes, List.flatMap_cons, ← moduleBytes, List.length_append, ih, List.length_cons, List.length_cons,
      List.length_nil, List.length_cons]
    omega

theorem getElem?_moduleBytes (rest : Bytes) (hi : i < modules.length) :
    (moduleBytes modules ++ rest)[2 * i]? = some modules[i].1 ∧
      (moduleBytes modules ++ rest)[2 * i + 1]? = some modules[i].2 := by
  induction modules generalizing i with
  | nil => cases hi
  | cons m ms ih =>
    cases i with
    | zero => exact ⟨rfl, rfl⟩
    | succ i => exact ih (Nat.lt_of_succ_lt_succ hi)

theorem readUInt8_numMods (hlen : modules.length ≤ 8) :
    readUInt8 (statusData type modules queueLength) 1 = some modules.length := by
  have hmod : (UInt8.ofNat modules.length).toNat = modules.length := by
    rw [UInt8.toNat_ofNat']
    omega
  exact congrArg some hmod

theorem readUInt8_address (hi : i < modules.length) :
    readUInt8 (statusData type modules queueLength) (2 + 2 * i) = some modules[i].1.toNat := by
  have h := (getElem?_moduleBytes [queueLength] hi).1
  rw [readUInt8, statusData, Nat.add_comm 2]
  exact congrArg (Option.map UInt8.toNat) h

theorem readUInt8_count (hi : i < modules.length) :
    readUInt8 (statusData type modules queueLength) (3 + 2 * i) = some modules[i].2.toNat := by
  have h := (getElem?_moduleBytes [queueLength] hi).2
  rw [readUInt8, statusData, Nat.add_comm 3]
  exact congrArg (Option.map UInt8.toNat) h

theorem length_statusData : (statusData type modules queueLength).length = 3 + 2 * modules.length := by
  rw [statusData, List.cons_append, List.cons_append, List.length_cons, List.length_cons, List.length_append,
    length_moduleBytes, List.length_singleton]
  omega

theorem readUInt8_queueLength :
    readUInt8 (statusData type modules queueLength) (2 + 2 * modules.length) = some queueLength.toNat := by
  have h : (moduleBytes modules ++ [queueLength])[2 * modules.length]? = some queueLength := by
    rw [List.getElem?_append_right (Nat.le_of_eq length_moduleBytes), length_moduleBytes, Nat.sub_self]
    rfl
  rw [readUInt8, statusData, Nat.add_comm 2]
  exact congrArg (Option.map UInt8.toNat) h

end

/-! ## What the server makes of it -/

/-- The address of a sender. The second case of 0x34, for `ucsd`, is never reached, so no
address has that name. -/
def addressOf : Sender → Option UInt8
  | .controller => some 0x20
  | .radioStatus => some 0x22
  | .ambientSensing => some 0x32
  | .audioSpectrum => some 0x33
  | .microwaveRadar => some 0x34
  | .ucsdAirQuality => none
  | .rfSpectrum => some 0x36

theorem caseOf_iff {address : UInt8} {s : Sender} : caseOf address.toNat = some s ↔ addressOf s = some address := by
  have heq : ∀ k : UInt8, address.toNat = k.toNat → some k = some address :=
    fun k hk => congrArg some (UInt8.toNat_inj.mp hk).symm
  constructor
  · intro h
    rw [caseOf] at h
    -- The second case of 0x34 is behind the first.
    split_ifs at h with h20 h22 h32 h33 h34 h36 <;> cases h
    · exact heq 0x20 h20
    · exact heq 0x22 h22
    · exact heq 0x32 h32
    · exact heq 0x33 h33
    · exact heq 0x34 h34
    · exact heq 0x36 h36
  · intro h
    cases s <;> cases h <;> rfl

section
variable {modules : List (UInt8 × UInt8)} {queueLength : UInt8}

/-- Each module with the one behind it. -/
def followers (modules : List (UInt8 × UInt8)) : List ((UInt8 × UInt8) × (UInt8 × UInt8)) :=
  modules.zip modules.tail

/-- What a turn of the loop takes from two modules: it reads one byte too early,
the count of the first for an address and the address of the second for a count. -/
def takeShifted (sent : Sender → Nat) (p : (UInt8 × UInt8) × (UInt8 × UInt8)) : Sender → Nat :=
  match caseOf p.1.2.toNat with
  | some s => Function.update sent s p.2.1.toNat
  | none => sent

/-- The address of the module behind the last one with this count. -/
def follower (modules : List (UInt8 × UInt8)) (count : UInt8) : Nat :=
  ((followers modules).filter (·.1.2 = count)).getLast?.elim 0 (·.2.1.toNat)

theorem foldl_takeShifted (ps : List ((UInt8 × UInt8) × (UInt8 × UInt8))) {sent : Sender → Nat} {s : Sender}
    {address : UInt8} (hs : addressOf s = some address) :
    ps.foldl takeShifted sent s = (ps.filter (·.1.2 = address)).getLast?.elim (sent s) (·.2.1.toNat) := by
  induction ps generalizing sent with
  | nil => rfl
  | cons p ps ih =>
    rw [List.foldl_cons, ih, List.filter_cons]
    by_cases hp : p.1.2 = address
    · have htake : takeShifted sent p s = p.2.1.toNat := by
        rw [takeShifted, caseOf_iff.mpr (hp ▸ hs : addressOf s = some p.1.2)]
        exact Function.update_self ..
      rw [if_pos (decide_eq_true hp), List.getLast?_cons, htake]
      cases (ps.filter (·.1.2 = address)).getLast? <;> rfl
    · have htake : takeShifted sent p s = sent s := by
        rw [takeShifted]
        cases hcase : caseOf p.1.2.toNat with
        | none => rfl
        | some s' =>
          have hne : s ≠ s' := by
            rintro rfl
            rw [caseOf_iff, hs] at hcase
            exact hp (Option.some.inj hcase).symm
          exact Function.update_of_ne hne ..
      rw [if_neg (by simpa using hp), htake]

theorem countModules_shifted {type : UInt8} {k j : Nat} {sent : Sender → Nat} (hk : j + 1 + k = modules.length) :
    countModules (statusData type modules queueLength) k (j + 1) sent =
      some (((followers modules).drop j).foldl takeShifted sent) := by
  induction k generalizing j sent with
  | zero =>
    have hnil : (followers modules).drop j = [] := by
      rw [List.drop_eq_nil_iff, followers, List.length_zip, List.length_tail]
      omega
    rw [countModules, hnil, List.foldl_nil]
  | succ k ih =>
    have hj : j < modules.length := by omega
    have hj' : j + 1 < modules.length := by omega
    have hlen : j < (followers modules).length := by
      rw [followers, List.length_zip, List.length_tail]
      omega
    have hpair : (followers modules)[j] = (modules[j], modules[j + 1]) := by
      simp [followers]
    have hkey : readUInt8 (statusData type modules queueLength) (1 + (j + 1) * 2) = some modules[j].2.toNat := by
      rw [show 1 + (j + 1) * 2 = 3 + 2 * j by omega]
      exact readUInt8_count hj
    have hvalue : readUInt8 (statusData type modules queueLength) (1 + (j + 1) * 2 + 1) =
        some modules[j + 1].1.toNat := by
      rw [show 1 + (j + 1) * 2 + 1 = 2 + 2 * (j + 1) by omega]
      exact readUInt8_address hj'
    rw [countModules, hkey, Option.bind_eq_bind, Option.bind_some, List.drop_eq_getElem_cons hlen, List.foldl_cons,
      hpair]
    cases hcase : caseOf modules[j].2.toNat with
    | none =>
      simp only [takeShifted, hcase]
      exact ih (by omega)
    | some s =>
      simp only [takeShifted, hcase, hvalue, Option.bind_some]
      exact ih (by omega)

/-- What the server takes for the queue's length is the last count. -/
def lastCount (modules : List (UInt8 × UInt8)) : Nat := modules.getLast?.elim 0 (·.2.toNat)

theorem caseOf_length (hlen : modules.length ≤ 8) : caseOf modules.length = none := by
  rw [caseOf]
  split_ifs <;> first | omega | rfl

theorem countModules_all {type : UInt8} {sent : Sender → Nat} (hlen : modules.length ≤ 8) :
    countModules (statusData type modules queueLength) modules.length 0 sent =
      some ((followers modules).foldl takeShifted sent) := by
  cases hn : modules.length with
  | zero =>
    rw [List.length_eq_zero_iff.mp hn]
    rfl
  | succ k =>
    rw [countModules, Nat.zero_mul, Nat.add_zero, readUInt8_numMods hlen, Option.bind_eq_bind, Option.bind_some,
      caseOf_length hlen]
    exact countModules_shifted (j := 0) (by omega)

theorem readUInt8_lastCount {type : UInt8} (hlen : modules.length ≤ 8) :
    readUInt8 (statusData type modules queueLength) (1 + modules.length * 2) = some (lastCount modules) := by
  rcases Nat.eq_zero_or_pos modules.length with hzero | hpos
  · rw [List.length_eq_zero_iff.mp hzero]
    rfl
  · have hlt : modules.length - 1 < modules.length := by omega
    rw [show 1 + modules.length * 2 = 3 + 2 * (modules.length - 1) by omega, readUInt8_count hlt, lastCount,
      List.getLast?_eq_getElem?, List.getElem?_eq_getElem hlt]
    rfl

variable (queueLength) in
/-- The server makes this of the status data of `radio_app`. -/
theorem parseStatus_app (hlen : modules.length ≤ 8) : ∃ m,
    parseStatus (statusData 0x01 modules queueLength) = some (some m) ∧ m.radioQueueLength = lastCount modules ∧
      ∀ s address, addressOf s = some address → m.packetsSent s = follower modules address := by
  have htype : readUInt8 (statusData 0x01 modules queueLength) 0 = some 1 := rfl
  refine ⟨⟨(followers modules).foldl takeShifted fun _ => 0, [], lastCount modules⟩, ?_, rfl,
    fun s address hs => foldl_takeShifted _ hs⟩
  simp only [parseStatus, htype, readUInt8_numMods hlen, countModules_all hlen, readUInt8_lastCount hlen,
    Option.bind_eq_bind, Option.bind_some, if_true]

theorem storedLogs_ge {buf : Bytes} {k i : Nat} {r : List (Bytes × Nat) × Nat} (h : storedLogs buf k i = some r) :
    i ≤ r.2 := by
  induction k generalizing i r with
  | zero =>
    cases h
    exact Nat.le_refl i
  | succ k ih =>
    simp only [storedLogs, Option.bind_eq_bind, Option.bind_eq_some_iff] at h
    obtain ⟨_, -, len, -, rest, hrest, heq⟩ := h
    cases heq
    have hle : i + 3 + len ≤ rest.2 := ih hrest
    exact (by omega : i ≤ rest.2)

/-- Of the status data of `radio_app_ble`, it reads past the end. -/
theorem parseStatus_appBle (hlen : modules.length ≤ 8) :
    parseStatus (statusData 0x02 modules queueLength) = none := by
  have htype : readUInt8 (statusData 0x02 modules queueLength) 0 = some 2 := rfl
  have hstored : readUInt8 (statusData 0x02 modules queueLength) (modules.length * 2 + 2) =
      some queueLength.toNat := by
    rw [show modules.length * 2 + 2 = 2 + 2 * modules.length by omega]
    exact readUInt8_queueLength
  simp only [parseStatus, htype, readUInt8_numMods hlen, countModules_all hlen, hstored, Option.bind_eq_bind,
    Option.bind_some, if_true]
  rw [if_neg (by decide), Option.bind_eq_none_iff]
  intro logs hlogs
  have hend := storedLogs_ge hlogs
  rw [Option.bind_eq_none_iff]
  intro queueSize hread
  rw [readUInt8, List.getElem?_eq_none (by rw [length_statusData]; omega)] at hread
  cases hread

/-! ## From one to the other -/

/-- The message has the packet count of each module, no packets of other senders, and the
queue's length. -/
structure Decodes (m : StatusMessage) (modules : List (UInt8 × UInt8)) (queueLength : Nat) : Prop where
  queueLength : m.radioQueueLength = queueLength
  counts : ∀ p ∈ modules, ∃ s, addressOf s = some p.1 ∧ m.packetsSent s = p.2.toNat
  others : ∀ s address, addressOf s = some address → (∀ p ∈ modules, p.1 ≠ address) → m.packetsSent s = 0

/-- What is read one byte too early is what is meant: the last count is the
queue's length, and the count of each module is the address behind the last module that
has its address for a count. -/
structure Coincides (modules : List (UInt8 × UInt8)) (queueLength : Nat) : Prop where
  queueLength : lastCount modules = queueLength
  counts : ∀ p ∈ modules, (∃ s, addressOf s = some p.1) ∧ follower modules p.1 = p.2.toNat
  others : ∀ s address, addressOf s = some address → (∀ p ∈ modules, p.1 ≠ address) → follower modules address = 0

/-- The server knows all modules, none of them has sent a packet, and nothing is queued. -/
structure Silent (modules : List (UInt8 × UInt8)) (queueLength : Nat) : Prop where
  queueLength : queueLength = 0
  known : ∀ p ∈ modules, ∃ s, addressOf s = some p.1
  counts : ∀ p ∈ modules, p.2 = 0

variable (queueLength) in
theorem decodes_iff (hlen : modules.length ≤ 8) (type : UInt8) (htype : type = 0x01 ∨ type = 0x02) :
    (∃ m, parseStatus (statusData type modules queueLength) = some (some m) ∧ Decodes m modules queueLength.toNat) ↔
      type = 0x01 ∧ Coincides modules queueLength.toNat := by
  rcases htype with rfl | rfl
  · obtain ⟨m, hparse, hqueue, hcounts⟩ := parseStatus_app queueLength hlen
    rw [hparse]
    constructor
    · rintro ⟨m', heq, hdecodes⟩
      obtain rfl := Option.some.inj (Option.some.inj heq)
      refine ⟨rfl, hqueue ▸ hdecodes.queueLength, fun p hp => ?_, fun s address hs => ?_⟩
      · obtain ⟨s, hs, hcount⟩ := hdecodes.counts p hp
        exact ⟨⟨s, hs⟩, hcounts s p.1 hs ▸ hcount⟩
      · rw [← hcounts s address hs]
        exact hdecodes.others s address hs
    · rintro ⟨-, hcoincides⟩
      refine ⟨m, rfl, hqueue.trans hcoincides.queueLength, fun p hp => ?_, fun s address hs => ?_⟩
      · obtain ⟨⟨s, hs⟩, hcount⟩ := hcoincides.counts p hp
        exact ⟨s, hs, (hcounts s p.1 hs).trans hcount⟩
      · rw [hcounts s address hs]
        exact hcoincides.others s address hs
  · rw [parseStatus_appBle hlen]
    constructor
    · rintro ⟨m, heq, -⟩
      cases heq
    · rintro ⟨heq, -⟩
      exact absurd heq (by decide)

/-! ## When the two coincide -/

theorem addressOf_ge {s : Sender} {address : UInt8} (hs : addressOf s = some address) : 0x20 ≤ address.toNat := by
  cases s <;> cases hs <;> decide

theorem followers_append (front back : List (UInt8 × UInt8)) (p q : UInt8 × UInt8) :
    followers (front ++ p :: q :: back) = followers (front ++ [p]) ++ (p, q) :: followers (q :: back) := by
  induction front with
  | nil => rfl
  | cons f front ih =>
    cases front with
    | nil => rfl
    | cons next front => exact congrArg ((f, next) :: ·) ih

theorem follower_last (front : List (UInt8 × UInt8)) {p q : UInt8 × UInt8} {back : List (UInt8 × UInt8)}
    (hback : ∀ b ∈ q :: back, b.2 ≠ p.2) : follower (front ++ p :: q :: back) p.2 = q.1.toNat := by
  have hnone : (followers (q :: back)).filter (·.1.2 = p.2) = [] := by
    rw [List.filter_eq_nil_iff]
    intro pair hpair
    simpa using hback pair.1 (List.of_mem_zip hpair).1
  rw [follower, followers_append, List.filter_append, List.filter_cons_of_pos (by simp), hnone,
    List.getLast?_append, List.getLast?_singleton]
  rfl

/-- What is read for a count, other than zero, is the address of a module, and some module
has the count. -/
theorem follower_cases (modules : List (UInt8 × UInt8)) (count : UInt8) : follower modules count = 0 ∨
    ∃ p ∈ modules, ∃ q ∈ modules, p.2 = count ∧ follower modules count = q.1.toNat := by
  rw [follower]
  cases hlast : ((followers modules).filter (·.1.2 = count)).getLast? with
  | none => exact .inl rfl
  | some pair =>
    obtain ⟨hpair, hcount⟩ := List.mem_filter.mp (List.mem_of_getLast? hlast)
    obtain ⟨hfirst, hsecond⟩ := List.of_mem_zip hpair
    exact .inr ⟨pair.1, hfirst, pair.2, List.mem_of_mem_tail hsecond, by simpa using hcount, rfl⟩

theorem follower_ge {front back : List (UInt8 × UInt8)} {p : UInt8 × UInt8}
    (hmodules : modules = front ++ p :: back) (hback : back ≠ [])
    (hknown : ∀ p ∈ modules, ∃ s, addressOf s = some p.1) :
    0x20 ≤ follower modules p.2 := by
  obtain ⟨q, back, rfl⟩ := List.exists_cons_of_ne_nil hback
  have hpair : (p, q) ∈ (followers modules).filter (·.1.2 = p.2) := by
    rw [hmodules, followers_append, List.filter_append, List.filter_cons_of_pos (by simp)]
    exact List.mem_append_right _ List.mem_cons_self
  rw [follower]
  cases hlast : ((followers modules).filter (·.1.2 = p.2)).getLast? with
  | none =>
    rw [List.getLast?_eq_none_iff.mp hlast] at hpair
    cases hpair
  | some pair =>
    have hmem := (List.mem_filter.mp (List.mem_of_getLast? hlast)).1
    obtain ⟨s, hs⟩ := hknown pair.2 (List.mem_of_mem_tail (List.of_mem_zip hmem).2)
    exact addressOf_ge hs

theorem counts_or_last (modules : List (UInt8 × UInt8)) : (∀ p ∈ modules, p.2 = 0) ∨
    ∃ front p back, modules = front ++ p :: back ∧ p.2 ≠ 0 ∧ ∀ b ∈ back, b.2 = 0 := by
  induction modules with
  | nil => exact .inl nofun
  | cons m ms ih =>
    rcases ih with hzero | ⟨front, p, back, rfl, hp, hback⟩
    · by_cases hm : m.2 = 0
      · exact .inl (List.forall_mem_cons.mpr ⟨hm, hzero⟩)
      · exact .inr ⟨[], m, ms, rfl, hm, hzero⟩
    · exact .inr ⟨m :: front, p, back, rfl, hp, hback⟩

/-- Where the two coincide, no module has packets: those of the last one with some are the
address of a module, whose packets are the address of the next one; so this has some too,
and the next one cannot be without. -/
theorem Coincides.counts_zero {length : Nat} (hlength : length < 0x20) (h : Coincides modules length) :
    ∀ p ∈ modules, p.2 = 0 := by
  have hknown : ∀ p ∈ modules, ∃ s, addressOf s = some p.1 := fun p hp => (h.counts p hp).1
  rcases counts_or_last modules with hzero | ⟨front, p, back, hmodules, hp, hback⟩
  · exact hzero
  · exfalso
    have hmem : p ∈ modules := hmodules ▸ List.mem_append_right _ List.mem_cons_self
    have hpos : 0 < p.2.toNat := Nat.pos_of_ne_zero fun hzero => hp (UInt8.toNat_inj.mp hzero)
    obtain ⟨i, hi, haddress⟩ : ∃ i ∈ modules, p.2 = i.1 := by
      have hcount := (h.counts p hmem).2
      rcases follower_cases modules p.1 with hzero | ⟨-, -, i, hi, -, hi'⟩
      · omega
      · exact ⟨i, hi, UInt8.toNat_inj.mp (hcount.symm.trans hi')⟩
    cases back with
    | nil =>
      obtain ⟨s, hs⟩ := hknown i hi
      have hge : 0x20 ≤ p.2.toNat := haddress ▸ addressOf_ge hs
      have hlast := h.queueLength
      rw [lastCount, hmodules, List.getLast?_concat] at hlast
      change p.2.toNat = length at hlast
      omega
    | cons q back =>
      have hqmem : q ∈ modules := by
        rw [hmodules]
        exact List.mem_append_right _ (List.mem_cons_of_mem _ List.mem_cons_self)
      have hq : i.2 = q.1 := by
        have hfollow : follower modules p.2 = q.1.toNat := by
          rw [hmodules]
          exact follower_last front fun b hb heq => hp (heq ▸ hback b hb)
        rw [haddress] at hfollow
        exact UInt8.toNat_inj.mp ((h.counts i hi).2.symm.trans hfollow)
      have hfront : i ∈ front ++ [p] := by
        rw [hmodules, List.append_cons, List.mem_append] at hi
        refine hi.resolve_right fun hzero => ?_
        obtain ⟨s, hs⟩ := hknown q hqmem
        have hge := addressOf_ge hs
        rw [← hq, hback i hzero] at hge
        exact absurd hge (by decide)
      obtain ⟨before, after, hsplit⟩ := List.append_of_mem hfront
      have hmodules' : modules = before ++ i :: (after ++ q :: back) := by
        rw [hmodules, List.append_cons, hsplit, List.append_assoc, List.cons_append]
      have hread := follower_ge hmodules' (by simp) hknown
      have hnone := (h.counts q hqmem).2
      rw [hback q List.mem_cons_self, ← hq] at hnone
      rw [hnone] at hread
      exact absurd hread (by decide)

theorem lastCount_zero (h : ∀ p ∈ modules, p.2 = 0) : lastCount modules = 0 := by
  rw [lastCount]
  cases hlast : modules.getLast? with
  | none => rfl
  | some m => exact congrArg UInt8.toNat (h m (List.mem_of_getLast? hlast))

theorem coincides_iff {length : Nat} (hlength : length < 0x20) : Coincides modules length ↔ Silent modules length := by
  constructor
  · intro h
    have hzero := h.counts_zero hlength
    exact ⟨h.queueLength ▸ lastCount_zero hzero, fun p hp => (h.counts p hp).1, hzero⟩
  · intro h
    have hread : ∀ s address, addressOf s = some address → follower modules address = 0 := by
      intro s address hs
      rcases follower_cases modules address with hzero | ⟨p, hp, -, -, hcount, -⟩
      · exact hzero
      · have hge := addressOf_ge hs
        rw [← hcount, h.counts p hp] at hge
        exact absurd hge (by decide)
    refine ⟨(lastCount_zero h.counts).trans h.queueLength.symm, fun p hp => ?_,
      fun s address hs _ => hread s address hs⟩
    obtain ⟨s, hs⟩ := h.known p hp
    rw [h.counts p hp, hread s p.1 hs]
    exact ⟨⟨s, hs⟩, rfl⟩

end

/-! ## The status packet -/

section
variable {c : PacketCounts}

/-- The modules known in slots, with their packet counts. -/
def modulesOf (c : PacketCounts) (is : List (Fin numberOfModuleSlots)) : List (UInt8 × UInt8) :=
  (is.takeWhile (c.moduleNumMap · ≠ 0)).map fun i => (c.moduleNumMap i, c.modulePacketCount i)

def modules (c : PacketCounts) : List (UInt8 × UInt8) := modulesOf c (List.finRange numberOfModuleSlots)

theorem length_modules (h : c.Known) : (modules c).length = c.numberOfModules.toNat := by
  have hslots : ∀ i, decide (c.moduleNumMap i ≠ 0) = decide (i.val < c.numberOfModules.toNat) :=
    fun i => decide_eq_decide.mpr (h.slot i)
  have hall : ∀ n ≤ numberOfModuleSlots,
      ((List.finRange numberOfModuleSlots).takeWhile fun i => decide (i.val < n)).length = n := by decide
  rw [modules, modulesOf, List.length_map]
  simp only [hslots]
  exact hall _ h.le

theorem read_reportModules (is : List (Fin numberOfModuleSlots)) {k : Nat} (status : Mem UInt8) (reps : EnergyReports)
    (total : UInt16) (hk : is.map Fin.val = List.range' k is.length) :
    (reportModules c is status reps total).1.read 0
      (statusDataOffset + 1 + k * 2 + (moduleBytes (modulesOf c is)).length) =
    status.read 0 (statusDataOffset + 1 + k * 2) ++ moduleBytes (modulesOf c is) := by
  induction is generalizing k status reps total with
  | nil => exact (List.append_nil _).symm
  | cons i is ih =>
    rw [List.map_cons, List.length_cons, List.range'_succ, List.cons.injEq] at hk
    obtain ⟨rfl, hk⟩ := hk
    rw [reportModules]
    by_cases hi : c.moduleNumMap i ≠ 0
    · have hcopy := Mem.read_copy_append status (statusDataOffset + 1 + i * 2)
        [c.moduleNumMap i, c.modulePacketCount i]
      have hbytes : moduleBytes (modulesOf c (i :: is)) =
          [c.moduleNumMap i, c.modulePacketCount i] ++ moduleBytes (modulesOf c is) := by
        rw [modulesOf, takeWhile_of_known hi]
        rfl
      have hoff : statusDataOffset + 1 + i * 2 + (moduleBytes (modulesOf c (i :: is))).length =
          statusDataOffset + 1 + (i.val + 1) * 2 + (moduleBytes (modulesOf c is)).length := by
        rw [hbytes, List.length_append, List.length_cons, List.length_singleton]
        omega
      rw [if_pos hi, hoff, ih _ _ _ hk, hbytes, ← List.append_assoc, ← hcopy, List.length_cons, List.length_singleton]
      congr 2
      omega
    · rw [if_neg hi, modulesOf, takeWhile_of_free hi]
      exact (List.append_nil _).symm

end

theorem read_report {c : PacketCounts} (hknown : c.Known) {buf : Mem UInt8} {reps : EnergyReports} {total : UInt16}
    {queueLength : UInt8} : ((reportModules c (List.finRange numberOfModuleSlots)
      (buf.copy statusDataOffset [c.numberOfModules]) reps total).1.copy
      (statusDataOffset + 1 + c.numberOfModules.toNat * 2) [queueLength]).read 23 (3 + c.numberOfModules.toNat * 2) =
      statusData (buf 23) (modules c) queueLength := by
  have hlength := length_modules hknown
  have hcount : UInt8.ofNat (modules c).length = c.numberOfModules := by
    rw [hlength]
    exact UInt8.ofNat_toNat
  have hbytes : (moduleBytes (modules c)).length = c.numberOfModules.toNat * 2 := by
    rw [length_moduleBytes, hlength, Nat.mul_comm]
  have hmodules := read_reportModules (c := c) (List.finRange numberOfModuleSlots) (k := 0)
    (buf.copy statusDataOffset [c.numberOfModules]) reps total (by decide)
  rw [← modules, hbytes, Nat.zero_mul, Nat.add_zero] at hmodules
  have hnumber := Mem.read_copy_append buf statusDataOffset [c.numberOfModules]
  have hqueue := Mem.read_copy_append (reportModules c (List.finRange numberOfModuleSlots)
    (buf.copy statusDataOffset [c.numberOfModules]) reps total).1
    (statusDataOffset + 1 + c.numberOfModules.toNat * 2) [queueLength]
  have htype : buf.read 0 statusDataOffset = buf.read 0 23 ++ [buf 23] := Mem.read_add buf 0 23 1
  have hsplit : statusDataOffset + 1 + c.numberOfModules.toNat * 2 + [queueLength].length =
      23 + (3 + c.numberOfModules.toNat * 2) := by
    rw [statusDataOffset, List.length_singleton]
    omega
  rw [hmodules, show statusDataOffset + 1 = statusDataOffset + [c.numberOfModules].length from rfl, hnumber, htype,
    ← show statusDataOffset + 1 = statusDataOffset + [c.numberOfModules].length from rfl, hsplit,
    Mem.read_add] at hqueue
  simp only [List.append_assoc] at hqueue
  rw [(List.append_inj hqueue (by simp)).2, statusData, hcount]
  rfl

/-- The status packet of a radio that is due, when nothing happens while the
callback waits. -/
theorem putStatus_countSend {f : Firmware} {r : Radio f} (hknown : r.counts.Known) (hcounter : r.sendCounter = 29)
    (htype : r.statusSendBuf 23 = f.statusType) : ∃ head rc, head.length = 23 ∧
      (Radio.putStatus (Radio.countSend true r)).2 = [.add ⟨0x22,
        head ++ statusData f.statusType (modules r.counts) r.queue.calcQueueLength.toUInt8⟩ rc] := by
  have hdue : r.sendCounter + 1 = 30 := by
    rw [hcounter]
    rfl
  have hle : r.counts.numberOfModules.toNat ≤ 8 := hknown.le
  have hlen : (statusDataOffset + 1 + r.counts.numberOfModules.toNat * 2 + 1).toUInt8.toNat =
      23 + (3 + r.counts.numberOfModules.toNat * 2) := by
    rw [Nat.toUInt8_eq, UInt8.toNat_ofNat', statusDataOffset]
    omega
  simp only [Radio.countSend, hdue, if_true, Bool.not_true, Bool.false_eq_true, if_false, Radio.putStatus, hlen]
  rw [Mem.read_add, Nat.zero_add, Mem.read_copy_disjoint (o := 23) (.inr (Nat.le_refl 23)), read_report hknown, htype]
  exact ⟨_, _, Mem.length_read .., rfl⟩

/-- The server decodes a status packet as it was meant exactly when that is of
`radio_app` and has nothing to tell but which modules there are, all known to the server. -/
theorem status_roundtrip {f : Firmware} (hf : f.statusType = 0x01 ∨ f.statusType = 0x02) {r : Radio f}
    (hknown : r.counts.Known) (hcounter : r.sendCounter = 29) (htype : r.statusSendBuf 23 = f.statusType) :
    ∃ packet rc, (Radio.putStatus (Radio.countSend true r)).2 = [.add ⟨0x22, packet⟩ rc] ∧
      ((∃ m, parseStatus (packet.drop 23) = some (some m) ∧ Decodes m (modules r.counts) r.queue.calcQueueLength) ↔
        f.statusType = 0x01 ∧ Silent (modules r.counts) r.queue.calcQueueLength) := by
  obtain ⟨head, rc, hhead, hput⟩ := putStatus_countSend hknown hcounter htype
  have hlt : r.queue.calcQueueLength < 30 := Ring.dist_lt ..
  have hqueue : r.queue.calcQueueLength.toUInt8.toNat = r.queue.calcQueueLength := by
    rw [Nat.toUInt8_eq, UInt8.toNat_ofNat', Nat.mod_eq_of_lt]
    exact Nat.lt_trans hlt (by decide)
  refine ⟨_, rc, hput, ?_⟩
  rw [List.drop_left' hhead]
  have hiff := decodes_iff r.queue.calcQueueLength.toUInt8
    (length_modules hknown ▸ hknown.le) f.statusType hf
  rwa [hqueue, coincides_iff (Nat.lt_trans hlt (by decide))] at hiff

/-- The controller and another module with a packet count, in a radio that is due. -/
def sampleDue (address count : UInt8) : Radio sampleApp :=
  { (Radio.boot : Radio sampleApp) with
    sendCounter := 29
    counts := ⟨fun i => if i.val = 0 then 0x20 else if i.val = 1 then address else 0,
      fun i => if i.val = 1 then count else 0, 2⟩ }

theorem known_sampleDue (address count : UInt8) (h : address ≠ 0) : (sampleDue address count).counts.Known where
  le := (by decide : 2 ≤ numberOfModuleSlots)
  slot i := by
    change (if i.val = 0 then 0x20 else if i.val = 1 then address else 0) ≠ (0 : UInt8) ↔ i.val < 2
    split_ifs with h0 h1
    · exact iff_of_true (by decide) (by omega)
    · exact iff_of_true h (by omega)
    · exact iff_of_false (fun h => h rfl) (by omega)

/-- The server decodes the status of two modules that have sent nothing, and not that of one
which has sent five packets from an address that the server does not know. -/
theorem status_roundtrip_modules :
    (∃ packet rc, (Radio.putStatus (Radio.countSend true (sampleDue 0x32 0))).2 = [.add ⟨0x22, packet⟩ rc] ∧
      ∃ m, parseStatus (packet.drop 23) = some (some m) ∧ Decodes m [(0x20, 0), (0x32, 0)] 0) ∧
    ∃ packet rc, (Radio.putStatus (Radio.countSend true (sampleDue 0x10 5))).2 = [.add ⟨0x22, packet⟩ rc] ∧
      ¬ ∃ m, parseStatus (packet.drop 23) = some (some m) ∧ Decodes m [(0x20, 0), (0x10, 5)] 0 := by
  obtain ⟨packet, rc, hput, hiff⟩ := status_roundtrip (.inl rfl) (known_sampleDue 0x32 0 (by decide)) rfl (by decide)
  obtain ⟨packet', rc', hput', hiff'⟩ :=
    status_roundtrip (.inl rfl) (known_sampleDue 0x10 5 (by decide)) rfl (by decide)
  have hmodules : modules (sampleDue 0x32 0).counts = [(0x20, 0), (0x32, 0)] := by decide
  have hmodules' : modules (sampleDue 0x10 5).counts = [(0x20, 0), (0x10, 5)] := by decide
  rw [hmodules] at hiff
  rw [hmodules'] at hiff'
  refine ⟨⟨packet, rc, hput, hiff.mpr ⟨rfl, rfl, ?_, ?_⟩⟩, packet', rc', hput', fun h => ?_⟩
  · exact List.forall_mem_cons.mpr ⟨⟨.controller, rfl⟩, List.forall_mem_singleton.mpr ⟨.ambientSensing, rfl⟩⟩
  · exact List.forall_mem_cons.mpr ⟨rfl, List.forall_mem_singleton.mpr rfl⟩
  · exact absurd ((hiff'.mp h).2.counts (0x10, 5) (List.mem_cons_of_mem _ List.mem_cons_self)) (by decide)

/-- A packet of the controller is sent, and the report is made. -/
def sampleStatus : List Radio.Event :=
  .joined :: ReportingRadio.sampleSend 0x20 ++ List.replicate 29 (.timer true) ++
    [.resume { ret := 0, energyUsedSinceReset := 100 }, .resume { ret := 0 }, .resume { ret := 0 }]

/-- The status packet has one packet of the controller and an empty queue. The
server takes it for no packet of the controller and a queue of one. -/
theorem status_decoded_shifted : ∃ r as packet rc m,
    Run (fun (r : Radio sampleApp) e r' as => r.step e = some (r', as)) Radio.boot sampleStatus r as ∧
      .add ⟨0x22, packet⟩ rc ∈ as ∧ packet.drop 23 = statusData 0x01 [(0x20, 1)] 0 ∧
      parseStatus (packet.drop 23) = some (some m) ∧ m.packetsSent .controller = 0 ∧ m.radioQueueLength = 1 := by
  have hexec : (Run.exec (fun (r : Radio sampleApp) e => r.step e) Radio.boot sampleStatus).map (fun r =>
      r.2.any fun
        | .add entry _ => entry.address = 0x22 ∧ entry.bytes.drop 23 = statusData 0x01 [(0x20, 1)] 0
        | _ => false) = some true := by decide +kernel
  obtain ⟨⟨r, as⟩, hexec, hany⟩ := Option.map_eq_some_iff.mp hexec
  obtain ⟨a, ha, hadd⟩ := List.any_eq_true.mp hany
  cases a with
  | add entry rc =>
    obtain ⟨haddress, hdata⟩ := of_decide_eq_true hadd
    obtain ⟨m, hparse, hqueue, hcounts⟩ := parseStatus_app 0
      (by decide : ([(0x20, 1)] : List (UInt8 × UInt8)).length ≤ 8)
    refine ⟨r, as, entry.bytes, rc, m, Run.of_exec hexec, ?_, hdata, hdata ▸ hparse, ?_, hqueue⟩
    · rw [← haddress]
      exact ha
    · exact hcounts .controller 0x20 rfl
  | _ => cases hadd

end RadioStatus

end Signpost
