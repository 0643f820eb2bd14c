/-
Downlink commands: when `downlink_cb` does what it is told, and only that.

The data is compared as far as it goes, so the start of a command is taken for the
command. A topic is compared up to its first zero, with names of 16 bytes, and the
name of a slot without a module is empty.

`downlink_cb` is first written as a choice of what to execute, and then as its
execution; what should be executed is a relation between names and words. The
two agree exactly where no comparison is deceived by a prefix or an empty name.
-/
import Signpost.ControllerPower
import Signpost.Strings

namespace Signpost

open Lib

namespace Controller

/-! ## What is executed -/

inductive Target
  | signpost
  | module (m : Fin 8)
  deriving DecidableEq

section
variable (c : Controller) (topic data : Bytes)

/-- The command that `downlink_cb` executes, and what for. -/
def dispatch : Option (Target × DownlinkCommand) :=
  (downlinkCommand data).bind fun command =>
    if forSignpost topic then if command = .reset then some (.signpost, command) else none
    else (c.downlinkModule topic).map fun m => (.module m, command)

def execute (remaining : Int) : Target × DownlinkCommand → Controller × List Action
  | (.signpost, _) => ({ c with hardReset := true }, [])
  | (.module m, command) => c.moduleCommand m remaining command

theorem downlink_eq (remaining : Int) :
    c.downlink topic data remaining = ((c.dispatch topic data).map (c.execute remaining)).getD (c, []) := by
  unfold downlink dispatch
  cases downlinkCommand data with
  | none => rfl
  | some command =>
    simp only [Option.bind_some]
    by_cases htopic : forSignpost topic
    · have hnone : c.downlinkModule topic = none := if_pos htopic
      by_cases hreset : command = .reset <;> simp [hnone, htopic, hreset, execute]
    · cases hm : c.downlinkModule topic <;> simp [htopic, execute]

/-! ## What should be -/

def DownlinkCommand.word : DownlinkCommand → Bytes
  | .on => ofChars "on"
  | .off => ofChars "off"
  | .reset => ofChars "reset"

/-- The name in a slot. It is empty if no module has declared one. -/
def nameOf (m : Fin 8) : Bytes := cstr (c.moduleInfo.names m).val

/-- The data is a command, and the topic what it is for. -/
def Asked : Target → DownlinkCommand → Prop
  | .signpost, command => command = .reset ∧ data = command.word ∧ topic = ofChars "signpost"
  | .module m, command => data = command.word ∧ c.nameOf m ≠ [] ∧ topic = c.nameOf m

/-- The data, up to its first zero, is a word as far as the data goes. -/
def Spells (word : Bytes) : Prop := cstr data = word.take data.length

instance (word : Bytes) : Decidable (Spells data word) := inferInstanceAs (Decidable (_ = _))

/-- The command that data is taken for. -/
def ReadAs : DownlinkCommand → Prop
  | .on => Spells data (ofChars "on")
  | .off => Spells data (ofChars "off") ∧ ¬ Spells data (ofChars "on")
  | .reset => Spells data (ofChars "reset") ∧ ¬ Spells data (ofChars "off") ∧ ¬ Spells data (ofChars "on")

/-- Data that is taken for a command is that command, and the topic is the whole
name of one module only, or of the signpost; or nothing is found that it could be
executed for. -/
def Clear : Prop :=
  ∀ command, ReadAs data command →
    if cstr topic = ofChars "signpost" then
      (command = .reset → data = command.word ∧ topic = ofChars "signpost") ∧
        (data = command.word → topic = ofChars "signpost" → ∀ m, c.nameOf m ≠ ofChars "signpost")
    else
      ∀ m, c.nameOf m = (cstr topic).take 16 →
        data = command.word ∧ topic = c.nameOf m ∧ topic ≠ [] ∧ ∀ m', c.nameOf m' = c.nameOf m → m' = m

end

/-! ## The comparisons -/

section
variable {c : Controller} {topic data : Bytes}

theorem strncmpEq_length_iff {word : Bytes} (hword : cstr word = word) :
    strncmpEq data.length word data = true ↔ Spells data word := by
  rw [strncmpEq_iff, hword, List.take_of_length_le (length_cstr_le data), Spells, eq_comm]

theorem downlinkCommand_eq_some_iff {command : DownlinkCommand} :
    downlinkCommand data = some command ↔ ReadAs data command := by
  have hon : strncmpEq data.length (ofChars "on") data = true ↔ Spells data (ofChars "on") :=
    strncmpEq_length_iff (by decide)
  have hoff : strncmpEq data.length (ofChars "off") data = true ↔ Spells data (ofChars "off") :=
    strncmpEq_length_iff (by decide)
  have hreset : strncmpEq data.length (ofChars "reset") data = true ↔ Spells data (ofChars "reset") :=
    strncmpEq_length_iff (by decide)
  unfold downlinkCommand
  simp only [hon, hoff, hreset]
  by_cases h₁ : Spells data (ofChars "on")
  · rw [if_pos h₁]
    cases command <;> simp [ReadAs, h₁]
  · rw [if_neg h₁]
    by_cases h₂ : Spells data (ofChars "off")
    · rw [if_pos h₂]
      cases command <;> simp [ReadAs, h₁, h₂]
    · rw [if_neg h₂]
      cases command <;> simp [ReadAs, h₁, h₂]

theorem forSignpost_iff : forSignpost topic = true ↔ cstr topic = ofChars "signpost" := by
  have hword : (cstr (ofChars "signpost")).take 16 = ofChars "signpost" := by decide
  rw [forSignpost, strncmpEq_iff, hword, eq_comm]
  constructor
  · intro h
    have hlen := congrArg List.length h
    rw [List.length_take, show (ofChars "signpost").length = 8 from rfl] at hlen
    rwa [List.take_of_length_le (by omega)] at h
  · intro h
    rw [h]
    rfl

theorem nameOf_string (m : Fin 8) : cstr (c.nameOf m) = c.nameOf m ∧ (c.nameOf m).length ≤ 16 :=
  ⟨cstr_cstr _, (length_cstr_le _).trans_eq (c.moduleInfo.names m).2⟩

/-- A slot is found if it is the first with a name, which the topic is compared with
as a string of at most 16 bytes. -/
theorem moduleNameToModNum_eq :
    moduleNameToModNum c.moduleInfo topic = (List.finRange 8).find? fun m => c.nameOf m = (cstr topic).take 16 := by
  unfold moduleNameToModNum
  congr 1
  funext m
  have htake : (c.nameOf m).take 16 = c.nameOf m := List.take_of_length_le (nameOf_string m).2
  rw [Bool.eq_iff_iff, strncmpEq_iff, decide_eq_true_eq, eq_comm, ← nameOf, htake]

theorem nameOf_of_found {m : Fin 8} (h : moduleNameToModNum c.moduleInfo topic = some m) :
    c.nameOf m = (cstr topic).take 16 := by
  rw [moduleNameToModNum_eq] at h
  simpa using List.find?_some h

theorem exists_found {m : Fin 8} (h : c.nameOf m = (cstr topic).take 16) :
    ∃ m', moduleNameToModNum c.moduleInfo topic = some m' ∧ c.nameOf m' = (cstr topic).take 16 := by
  cases hfind : moduleNameToModNum c.moduleInfo topic with
  | some m' => exact ⟨m', rfl, nameOf_of_found hfind⟩
  | none =>
    rw [moduleNameToModNum_eq, List.find?_eq_none] at hfind
    exact absurd h (by simpa using hfind m (List.mem_finRange m))

/-! ## The dispatch -/

theorem dispatch_signpost {command : DownlinkCommand} :
    c.dispatch topic data = some (.signpost, command) ↔
      ReadAs data command ∧ command = .reset ∧ cstr topic = ofChars "signpost" := by
  rw [← downlinkCommand_eq_some_iff, ← forSignpost_iff, dispatch]
  cases downlinkCommand data with
  | none => simp
  | some k =>
    by_cases htopic : forSignpost topic
    · by_cases hk : k = .reset <;> simp [htopic, hk]
      · exact fun h => h.symm
      · rintro rfl
        exact hk
    · simp [htopic]

theorem dispatch_module {m : Fin 8} {command : DownlinkCommand} :
    c.dispatch topic data = some (.module m, command) ↔
      ReadAs data command ∧ cstr topic ≠ ofChars "signpost" ∧ moduleNameToModNum c.moduleInfo topic = some m := by
  rw [← downlinkCommand_eq_some_iff, Ne, ← forSignpost_iff, dispatch]
  cases downlinkCommand data with
  | none => simp
  | some k =>
    by_cases htopic : forSignpost topic
    · by_cases hk : k = .reset <;> simp [htopic, hk]
    · simp [htopic, downlinkModule, and_comm]

theorem readAs_word (command : DownlinkCommand) : ReadAs command.word command :=
  downlinkCommand_eq_some_iff.mp (by cases command <;> rfl)

theorem Clear.asked_of_dispatch (h : c.Clear topic data) {target : Target} {command : DownlinkCommand}
    (hdispatch : c.dispatch topic data = some (target, command)) : c.Asked topic data target command := by
  cases target with
  | signpost =>
    obtain ⟨hread, rfl, hsignpost⟩ := dispatch_signpost.mp hdispatch
    have hclear := h .reset hread
    rw [if_pos hsignpost] at hclear
    exact ⟨rfl, hclear.1 rfl⟩
  | module m =>
    obtain ⟨hread, hsignpost, hfound⟩ := dispatch_module.mp hdispatch
    have hclear := h command hread
    rw [if_neg hsignpost] at hclear
    obtain ⟨hdata, htopic, hne, -⟩ := hclear m (nameOf_of_found hfound)
    exact ⟨hdata, htopic ▸ hne, htopic⟩

theorem Clear.dispatch_of_asked (h : c.Clear topic data) {target : Target} {command : DownlinkCommand}
    (hasked : c.Asked topic data target command) : c.dispatch topic data = some (target, command) := by
  cases target with
  | signpost =>
    obtain ⟨rfl, rfl, rfl⟩ := hasked
    exact dispatch_signpost.mpr ⟨readAs_word .reset, rfl, by decide⟩
  | module m =>
    obtain ⟨rfl, -, rfl⟩ := hasked
    obtain ⟨hstring, hlen⟩ := nameOf_string (c := c) m
    have hclear := h command (readAs_word command)
    have hsignpost : cstr (c.nameOf m) ≠ ofChars "signpost" := by
      intro hsignpost
      have hname := hstring.symm.trans hsignpost
      rw [if_pos hsignpost] at hclear
      exact hclear.2 rfl hname m hname
    have hsame : c.nameOf m = (cstr (c.nameOf m)).take 16 := by rw [hstring, List.take_of_length_le hlen]
    rw [if_neg hsignpost] at hclear
    obtain ⟨m', hfound, hname⟩ := exists_found hsame
    obtain rfl := (hclear m hsame).2.2.2 m' (hname.trans hsame.symm)
    exact dispatch_module.mpr ⟨readAs_word command, hsignpost, hfound⟩

/-- `downlink_cb` executes what is dispatched, and that is what the data and the topic
ask for exactly if they are clear. -/
theorem downlink_exact_iff (c : Controller) (topic data : Bytes) :
    (∀ remaining, c.downlink topic data remaining =
        ((c.dispatch topic data).map (c.execute remaining)).getD (c, [])) ∧
      ((∀ target command, c.dispatch topic data = some (target, command) ↔ c.Asked topic data target command) ↔
        c.Clear topic data) := by
  refine ⟨c.downlink_eq topic data, fun h command hread => ?_,
    fun h _ _ => ⟨h.asked_of_dispatch, h.dispatch_of_asked⟩⟩
  split
  · next hsignpost =>
    refine ⟨fun hreset => ?_, fun hdata htopic m hname => ?_⟩
    · exact ((h .signpost command).mp (dispatch_signpost.mpr ⟨hread, hreset, hsignpost⟩)).2
    · have hasked : c.Asked topic data (.module m) command :=
        ⟨hdata, hname ▸ List.cons_ne_nil _ _, htopic.trans hname.symm⟩
      exact (dispatch_module.mp ((h _ _).mpr hasked)).2.1 hsignpost
  · next hsignpost =>
    intro m hname
    obtain ⟨m₀, hfound, hname₀⟩ := exists_found hname
    obtain ⟨hdata, hne, htopic⟩ := (h _ _).mp (dispatch_module.mpr ⟨hread, hsignpost, hfound⟩)
    -- every slot with the name should be what the command is for, and only one is found
    have hfirst : ∀ m', c.nameOf m' = c.nameOf m → m' = m₀ := by
      intro m' hname'
      have hsame : c.nameOf m' = c.nameOf m₀ := hname'.trans (hname.trans hname₀.symm)
      have hasked : c.Asked topic data (.module m') command := ⟨hdata, hsame ▸ hne, htopic.trans hsame.symm⟩
      exact Option.some.inj ((dispatch_module.mp ((h _ _).mpr hasked)).2.2.symm.trans hfound)
    obtain rfl := hfirst m rfl
    exact ⟨hdata, htopic, htopic ▸ hne, hfirst⟩

/-- No data turns module `a` on. -/
theorem downlink_empty :
    (init sampleInfo).dispatch (ofChars "a") [] = some (.module 0, .on) ∧
      ¬ (init sampleInfo).Asked (ofChars "a") [] (.module 0) .on := by
  refine ⟨by decide +kernel, fun h => ?_⟩
  exact absurd h.1 (by decide)

end

end Controller

end Signpost
