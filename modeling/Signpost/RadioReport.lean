/-
The energy reports of `radio_app`: the array that a report is made in, what is
written there before and after the energy query, and the packet counts that are
cleared after it.

While a report is made the timer callback runs again, and packets are counted.

The array and the counts are followed through the stages of the callback, and a
ledger beside them has the packets since the counts were last cleared. A report
is well formed if no packet of a new module comes between two of its parts.
-/
import Mathlib.Data.Fintype.Basic
import Signpost.RadioHistory

namespace Signpost

open Lib

/-! ## The modules known -/

namespace PacketCounts

/-- The modules known are in the first slots, and there are `number_of_modules`. -/
structure Known (c : PacketCounts) : Prop where
  le : c.numberOfModules.toNat ≤ numberOfModuleSlots
  slot : ∀ i, c.moduleNumMap i ≠ 0 ↔ i.val < c.numberOfModules.toNat

theorem known_boot : Known ⟨fun _ => 0, fun _ => 0, 0⟩ where
  le := Nat.zero_le _
  slot i := by simp

section
variable {c : PacketCounts} {moduleAddress : UInt8}

theorem Known.add (h : c.Known) {i : Fin numberOfModuleSlots} (hi : c.moduleNumMap i = 0)
    (hbefore : ∀ j < i, c.moduleNumMap j ≠ 0) (haddress : moduleAddress ≠ 0)
    (modulePacketCount : Fin numberOfModuleSlots → UInt8) :
    Known ⟨fun j => if j = i then moduleAddress else c.moduleNumMap j, modulePacketCount, c.numberOfModules + 1⟩ ∧
      (c.numberOfModules + 1).toNat = c.numberOfModules.toNat + 1 := by
  have hle : c.numberOfModules.toNat ≤ i.val := by
    by_contra hlt
    exact (h.slot i).mpr (Nat.lt_of_not_le hlt) hi
  have hge : i.val ≤ c.numberOfModules.toNat := by
    by_contra hlt
    have hslot := (h.slot ⟨c.numberOfModules.toNat, by omega⟩).mp
      (hbefore ⟨c.numberOfModules.toNat, by omega⟩ (Fin.lt_def.mpr (Nat.lt_of_not_le hlt)))
    exact Nat.lt_irrefl _ hslot
  have hslots : i.val < 8 := i.isLt
  have hsucc : (c.numberOfModules + 1).toNat = c.numberOfModules.toNat + 1 := by
    rw [UInt8.toNat_add]
    exact Nat.mod_eq_of_lt (show c.numberOfModules.toNat + 1 < 2 ^ 8 by omega)
  refine ⟨⟨?_, fun j => ?_⟩, hsucc⟩
  · rw [hsucc]
    exact (by omega : c.numberOfModules.toNat + 1 ≤ 8)
  · dsimp only
    rw [hsucc]
    split_ifs with hj
    · subst hj
      exact iff_of_true haddress (by omega)
    · rw [h.slot j]
      have hne : j.val ≠ i.val := fun heq => hj (Fin.ext heq)
      omega

theorem Known.countFrom (h : c.Known) (haddress : moduleAddress ≠ 0) {is : List (Fin numberOfModuleSlots)}
    (hsorted : is.Pairwise (· < ·)) (hbefore : ∀ j, j ∈ is ∨ c.moduleNumMap j ≠ 0) :
    (countFrom moduleAddress is c).Known ∧
      c.numberOfModules.toNat ≤ (Signpost.countFrom moduleAddress is c).numberOfModules.toNat := by
  induction is with
  | nil => exact ⟨h, Nat.le_refl _⟩
  | cons i is ih =>
    obtain ⟨hfirst, hsorted⟩ := List.pairwise_cons.mp hsorted
    rw [Signpost.countFrom]
    split_ifs with hzero heq
    · have hless : ∀ j < i, c.moduleNumMap j ≠ 0 := by
        intro j hj
        rcases hbefore j with hmem | hknown
        · rcases List.mem_cons.mp hmem with rfl | hmem
          · exact absurd hj (Fin.lt_irrefl j)
          · exact absurd hj (Fin.lt_asymm (hfirst j hmem))
        · exact hknown
      obtain ⟨hknown, hsucc⟩ := h.add hzero hless haddress
        (fun j => if j = i then c.modulePacketCount j + 1 else c.modulePacketCount j)
      exact ⟨hknown, by rw [hsucc]; exact Nat.le_succ _⟩
    · exact ⟨⟨h.le, h.slot⟩, Nat.le_refl _⟩
    · refine ih hsorted fun j => ?_
      rcases hbefore j with hmem | hknown
      · rcases List.mem_cons.mp hmem with rfl | hmem
        · exact .inr hzero
        · exact .inl hmem
      · exact .inr hknown

end

/-- The modules that are known stay so. -/
def Grows (c c' : PacketCounts) : Prop :=
  c.Known → c'.Known ∧ c.numberOfModules.toNat ≤ c'.numberOfModules.toNat

theorem Grows.refl (c : PacketCounts) : Grows c c := fun h => ⟨h, Nat.le_refl _⟩

theorem Grows.trans {c c' c'' : PacketCounts} (h : Grows c c') (h' : Grows c' c'') : Grows c c'' := by
  intro hknown
  obtain ⟨hknown', hle⟩ := h hknown
  obtain ⟨hknown'', hle'⟩ := h' hknown'
  exact ⟨hknown'', Nat.le_trans hle hle'⟩

theorem grows_countModulePacket (c : PacketCounts) (moduleAddress : UInt8) :
    Grows c (countModulePacket c moduleAddress) := by
  intro hknown
  unfold countModulePacket
  split_ifs with haddress
  · exact ⟨hknown, Nat.le_refl _⟩
  · exact hknown.countFrom haddress (List.pairwise_lt_finRange _) fun j => .inl (List.mem_finRange j)

theorem grows_fill {bufferSize : Nat} (q : Queue bufferSize) (fuel : Nat) (b : Batch) :
    Grows b.counts (q.fill fuel b).counts := by
  induction fuel generalizing b with
  | zero => exact .refl _
  | succ fuel ih =>
    have hput : Grows b.counts (q.put b).counts := grows_countModulePacket b.counts (q.dataAddress b.tempHead)
    rw [Queue.fill]
    split_ifs
    · exact hput
    · exact hput.trans (ih _)
    · exact .refl _

end PacketCounts

/-! ## What is written in the array of a report -/

/-- Nothing is written outside the array. -/
def EnergyReports.Inside (reps : EnergyReports) : Prop :=
  ∀ i, (reps.applicationId i).isSome ∨ (reps.energyUsed i).isSome → i.val < reps.size.toNat

/-- The array has `numReports` entries, and all of them are written. -/
structure EnergyReports.Complete (numReports : UInt8) (reps : EnergyReports) : Prop where
  slots : numReports.toNat ≤ numberOfModuleSlots
  size : numReports.toNat ≤ reps.size.toNat
  written : ∀ i : Fin numberOfModuleSlots, i.val < numReports.toNat →
    (reps.applicationId i).isSome ∧ (reps.energyUsed i).isSome

/-- A loop that ends where a condition fails goes over all that meet it, if they
come first. -/
theorem takeWhile_eq_filter {α : Type} {p : α → Bool} {l : List α} (h : l.Pairwise fun a b => p b → p a) :
    l.takeWhile p = l.filter p := by
  induction l with
  | nil => rfl
  | cons a l ih =>
    obtain ⟨hfirst, hrest⟩ := List.pairwise_cons.mp h
    by_cases ha : p a
    · rw [List.takeWhile_cons_of_pos ha, List.filter_cons_of_pos ha, ih hrest]
    · rw [List.takeWhile_cons_of_neg ha, List.filter_cons_of_neg ha, eq_comm, List.filter_eq_nil_iff]
      exact fun b hb hpb => ha (hfirst b hb hpb)

section
variable {c : PacketCounts}

theorem PacketCounts.Known.mem_takeWhile (h : c.Known) (i : Fin numberOfModuleSlots) :
    i ∈ (List.finRange numberOfModuleSlots).takeWhile (c.moduleNumMap · ≠ 0) ↔
      i.val < c.numberOfModules.toNat := by
  rw [takeWhile_eq_filter]
  · simp [h.slot i]
  · refine (List.pairwise_lt_finRange numberOfModuleSlots).imp fun hlt hb => ?_
    simp only [decide_eq_true_eq] at hb ⊢
    exact (h.slot _).mpr (Nat.lt_trans (Fin.lt_def.mp hlt) ((h.slot _).mp hb))

theorem takeWhile_of_known {i : Fin numberOfModuleSlots} {is : List (Fin numberOfModuleSlots)}
    (hi : c.moduleNumMap i ≠ 0) :
    (i :: is).takeWhile (c.moduleNumMap · ≠ 0) = i :: is.takeWhile (c.moduleNumMap · ≠ 0) :=
  List.takeWhile_cons_of_pos (p := fun j => c.moduleNumMap j ≠ 0) (decide_eq_true hi)

theorem takeWhile_of_free {i : Fin numberOfModuleSlots} {is : List (Fin numberOfModuleSlots)}
    (hi : ¬ c.moduleNumMap i ≠ 0) : (i :: is).takeWhile (c.moduleNumMap · ≠ 0) = [] :=
  List.takeWhile_cons_of_neg (p := fun j => c.moduleNumMap j ≠ 0) (by simpa using hi)

theorem reportModules_eq (is : List (Fin numberOfModuleSlots)) (status : Mem UInt8) (reps : EnergyReports)
    (total : UInt16) : (reportModules c is status reps total).2.1 = { reps with
      applicationId := fun j =>
        if j ∈ is.takeWhile (c.moduleNumMap · ≠ 0) then some (c.moduleNumMap j) else reps.applicationId j } := by
  induction is generalizing status reps total with
  | nil => rfl
  | cons i is ih =>
    rw [reportModules]
    by_cases hi : c.moduleNumMap i ≠ 0
    · rw [if_pos hi, ih, takeWhile_of_known hi]
      congr 1
      funext j
      simp only [List.mem_cons]
      by_cases hj : j = i
      · subst hj
        simp
      · simp [hj]
    · rw [if_neg hi, takeWhile_of_free hi]
      rfl

theorem energyShares_eq (share : UInt32 → UInt8 → UInt32) (energy : UInt32) (is : List (Fin numberOfModuleSlots))
    (reps : EnergyReports) : energyShares share energy c is reps = { reps with
      energyUsed := fun j =>
        if j ∈ is.takeWhile (c.moduleNumMap · ≠ 0) then some (share energy (c.modulePacketCount j))
        else reps.energyUsed j } := by
  induction is generalizing reps with
  | nil => rfl
  | cons i is ih =>
    rw [energyShares]
    by_cases hi : c.moduleNumMap i ≠ 0
    · rw [if_pos hi, ih, takeWhile_of_known hi]
      congr 1
      funext j
      simp only [List.mem_cons]
      by_cases hj : j = i
      · subst hj
        simp
      · simp [hj]
    · rw [if_neg hi, takeWhile_of_free hi]
      rfl

end

/-- The array when the energy query starts. -/
def startReports (c : PacketCounts) : EnergyReports where
  size := c.numberOfModules
  applicationId := fun j =>
    if j ∈ (List.finRange numberOfModuleSlots).takeWhile (c.moduleNumMap · ≠ 0) then some (c.moduleNumMap j)
    else none
  energyUsed := fun _ => none

section
variable {c c' : PacketCounts}

theorem PacketCounts.Known.applicationId_startReports (h : c.Known) (i : Fin numberOfModuleSlots) :
    ((startReports c).applicationId i).isSome ↔ i.val < c.numberOfModules.toNat := by
  rw [← h.mem_takeWhile i]
  dsimp only [startReports]
  split_ifs with hi
  · exact iff_of_true rfl hi
  · exact iff_of_false (by simp) hi

theorem PacketCounts.Known.inside_startReports (h : c.Known) : (startReports c).Inside := by
  rintro i (hi | hi)
  · exact (h.applicationId_startReports i).mp hi
  · cases hi

theorem PacketCounts.Known.complete_energyShares (h : c.Known) (h' : c'.Known)
    (hsize : c'.numberOfModules = c.numberOfModules) (share : UInt32 → UInt8 → UInt32) (energy : UInt32) :
    (energyShares share energy c' (List.finRange numberOfModuleSlots) (startReports c)).Inside ∧
      (energyShares share energy c' (List.finRange numberOfModuleSlots) (startReports c)).Complete
        c'.numberOfModules := by
  have henergy : ∀ i, ((energyShares share energy c' (List.finRange numberOfModuleSlots)
      (startReports c)).energyUsed i).isSome ↔ i.val < c.numberOfModules.toNat := by
    intro i
    rw [energyShares_eq, ← hsize, ← h'.mem_takeWhile i]
    dsimp only
    split_ifs with hi
    · exact iff_of_true rfl hi
    · exact iff_of_false (by simp [startReports]) hi
  have hid : ∀ i, ((energyShares share energy c' (List.finRange numberOfModuleSlots)
      (startReports c)).applicationId i).isSome ↔ i.val < c.numberOfModules.toNat := by
    intro i
    rw [energyShares_eq]
    exact h.applicationId_startReports i
  have hreps : (energyShares share energy c' (List.finRange numberOfModuleSlots) (startReports c)).size =
      c.numberOfModules := by rw [energyShares_eq]; rfl
  refine ⟨fun i hi => ?_, h'.le, ?_, fun i hi => ?_⟩
  · rw [hreps]
    rcases hi with hi | hi
    · exact (hid i).mp hi
    · exact (henergy i).mp hi
  · rw [hreps, hsize]
  · rw [hsize] at hi
    exact ⟨(hid i).mpr hi, (henergy i).mpr hi⟩

end

/-! ## The steps of the report part -/

/-- The stage waits for the answer to a report, or to the reset after it. -/
def Stage.isSent : Stage → Bool
  | .reporting _ | .resetting _ => true
  | _ => false

def Stage.isReset : Stage → Bool
  | .resetting _ => true
  | _ => false

/-- The size of the array that waits for the energy query. -/
def Stage.querySize? : Stage → Option UInt8
  | .querying reps _ => some reps.size
  | _ => none

def Stage.reports? : Stage → Option EnergyReports
  | .querying reps _ | .reporting reps | .resetting reps => some reps
  | _ => none

theorem Stage.reports?_ne_none {g : Stage} (h : g.Reports) : g.reports? ≠ none := by
  cases g <;> first | exact Option.some_ne_none _ | cases h

namespace Radio

/-- A step that does not go on with a report: it may count packets, and start
another energy query. -/
structure Quiet (c : PacketCounts) (stack : List Stage) (c' : PacketCounts) (stack' : List Stage)
    (as : List Action) : Prop where
  counts : PacketCounts.Grows c c'
  sent : stack'.filter Stage.isSent = stack.filter Stage.isSent
  stages : ∀ g ∈ stack', g ∈ stack ∨ g.reports? = none ∨ ∃ total, g = .querying (startReports c') total
  reports : ∀ n reps, .report n reps ∉ as

section
variable {f : Firmware} {r r' : Radio f} {malloc : Bool} {c c' : PacketCounts} {stack stack' : List Stage}
  {as : List Action}

theorem Quiet.refl (c : PacketCounts) (stack : List Stage) : Quiet c stack c stack [] where
  counts := .refl c
  sent := rfl
  stages _ hg := .inl hg
  reports _ _ := List.not_mem_nil

theorem Quiet.outputs (h : Quiet c stack c' stack' as) {as' : List Action}
    (hreports : ∀ n reps, .report n reps ∉ as') :
    Quiet c stack c' stack' as' :=
  ⟨h.counts, h.sent, h.stages, hreports⟩

theorem Quiet.pop (h : Quiet c stack c' stack' as) {g : Stage} (hg : g.reports? = none) :
    Quiet c (g :: stack) c' stack' as where
  counts := h.counts
  sent := by
    rw [h.sent]
    cases g <;> first | rfl | cases hg
  stages g' hg' := (h.stages g' hg').imp_left (List.mem_cons_of_mem g)
  reports := h.reports

theorem quiet_push (hcounts : PacketCounts.Grows c c') {g : Stage} (hg : g.reports? = none) :
    Quiet c stack c' (g :: stack) [] where
  counts := hcounts
  sent := by cases g <;> first | rfl | cases hg
  stages g' hg' := by
    rcases List.mem_cons.mp hg' with rfl | hmem
    · exact .inr (.inl hg)
    · exact .inl hmem
  reports _ _ := List.not_mem_nil

theorem quiet_countSend (malloc : Bool) :
    Quiet r.counts r.stack (r.countSend malloc).counts (r.countSend malloc).stack [] := by
  unfold countSend
  dsimp only
  split_ifs
  · exact .refl _ _
  · refine ⟨.refl _, rfl, fun g hg => ?_, fun _ _ => List.not_mem_nil⟩
    rcases List.mem_cons.mp hg with rfl | hmem
    · exact .inr (.inr ⟨_, congrArg₂ Stage.querying (reportModules_eq ..) rfl⟩)
    · exact .inl hmem
  · exact .refl _ _

theorem quiet_endSend (malloc : Bool) :
    Quiet r.counts r.stack (r.endSend malloc).counts (r.endSend malloc).stack [] :=
  quiet_countSend (r := { r with currentlySending := false }) malloc

theorem quiet_chooseRadio (h : r.chooseRadio malloc = (r', as)) :
    Quiet r.counts r.stack r'.counts r'.stack as := by
  rcases chooseRadio_cases h with ⟨-, -, rfl, rfl⟩ | ⟨-, rfl, rfl⟩ | ⟨rfl, rfl⟩
  · exact quiet_push (.refl _) rfl
  · exact (quiet_push (PacketCounts.grows_countModulePacket _ _) rfl).outputs (by simp)
  · exact quiet_endSend malloc

theorem quiet_timerCallback (h : r.timerCallback malloc = (r', as)) :
    Quiet r.counts r.stack r'.counts r'.stack as := by
  rcases timerCallback_cases h with ⟨rfl, rfl⟩ | ⟨-, ⟨-, ⟨rfl, rfl⟩ | hchoose⟩ | ⟨rfl, rfl⟩⟩
  · exact .refl _ _
  · exact quiet_push (.refl _) rfl
  · exact quiet_chooseRadio (r := { r with currentlySending := true }) hchoose
  · exact quiet_countSend malloc

theorem quiet_resume {a : Answer} {g : Stage} (hg : g.reports? = none) (hstack : r.stack = g :: stack)
    (h : r.resume a = some (r', as)) : Quiet r.counts r.stack r'.counts r'.stack as := by
  obtain ⟨g', stack', hstack', hresumes⟩ := resume_cases h
  obtain ⟨rfl, rfl⟩ := List.cons.inj (hstack.symm.trans hstack')
  rw [hstack]
  cases hresumes with
  | @choose cellularState r' as hchoose =>
    exact (quiet_chooseRadio (r := { r with cellularState, stack }) hchoose).pop hg
  | noService => exact (Quiet.refl _ _).pop hg
  | @post b hb =>
    have hgrows : PacketCounts.Grows r.counts b.counts :=
      hb ▸ PacketCounts.grows_fill r.queue queueSize ⟨f.header r.sn, r.queue.queueHead, r.counts, 0⟩
    exact ((quiet_push hgrows rfl).pop hg).outputs (by simp)
  | posted => exact (quiet_push (.refl _) rfl).pop hg
  | @batchSent cellBuffer tempHead _ =>
    have hend := quiet_endSend
      (r := { r with sn := r.sn + 1, queue := { r.queue with queueHead := tempHead }, stack }) a.malloc
    exact (hend.pop hg).outputs (by simp)
  | refused => exact (quiet_push (.refl _) rfl).pop hg
  | succeeded => exact (quiet_push (.refl _) rfl).pop hg
  | @failed g loraState _ =>
    exact ((quiet_endSend (r := { r with loraState, stack }) a.malloc).pop hg).outputs (by simp)
  | sent => exact ((quiet_push (.refl _) rfl).pop hg).outputs (by simp)
  | received => exact (quiet_endSend (r := { r with stack }) a.malloc).pop hg
  | reports hreports => exact absurd hg (Stage.reports?_ne_none hreports)
  | status hreports => exact absurd hg (Stage.reports?_ne_none hreports)

/-- A message, the timer and what `main` does. -/
theorem quiet_step {e : Event} (he : ∀ a, e ≠ .resume a) (h : r.step e = some (r', as)) :
    Quiet r.counts r.stack r'.counts r'.stack as := by
  cases e with
  | message sourceAddress frameType messageType messageLength message =>
    simp only [step] at h
    split at h <;> cases h
    · exact (Quiet.refl _ _).outputs (by simp)
    · exact .refl _ _
  | timer malloc => exact quiet_timerCallback (Option.some.inj h)
  | resume a => exact absurd rfl (he a)
  | joinFailed | joined =>
    simp only [step] at h
    split_ifs at h
    cases h
    exact .refl _ _

end

end Radio

/-! ## What the counts hold that was not reported -/

/-- An account of the packets in the counts. -/
structure Ledger where
  /-- Some are in no report that was acknowledged. -/
  unreported : Bool
  /-- For each report that waits for its answer or its reset, the last first:
  some were counted after it was sent. -/
  after : List Bool

namespace Ledger

def counted (l : Ledger) : Ledger := ⟨true, l.after.map fun _ => true⟩

def sent (l : Ledger) : Ledger := { l with after := false :: l.after }

def refused (l : Ledger) : Ledger := { l with after := l.after.tail }

/-- All packets are reported but those that were counted after the report. -/
def acknowledged (l : Ledger) : Ledger := { l with unreported := l.unreported && l.after.headD true }

/-- No packets are in the counts any more. -/
def cleared (l : Ledger) : Ledger := ⟨false, l.after.tail.map fun _ => false⟩

end Ledger

instance : DecidableEq PacketCounts := fun c c' =>
  decidable_of_iff (c.moduleNumMap = c'.moduleNumMap ∧ c.modulePacketCount = c'.modulePacketCount ∧
      c.numberOfModules = c'.numberOfModules) (by cases c; cases c'; simp)

/-- A radio, with an account that no code reads. -/
structure ReportingRadio (f : Firmware) where
  radio : Radio f
  ledger : Ledger

namespace ReportingRadio

variable {f : Firmware}

def boot : ReportingRadio f := ⟨.boot, ⟨false, []⟩⟩

inductive Action
  | radio (action : Signpost.Action)
  /-- The counts are cleared; packets in them are in no report that was
  acknowledged. -/
  | cleared (unreported : Bool)

/-- What a step of the radio is in the account. -/
def account (r r' : Radio f) (l : Ledger) : Radio.Event → Ledger × List Action
  | .resume a =>
    match r.stack with
    | .querying .. :: _ => (if a.ret < 0 then l else l.sent, [])
    | .reporting _ :: _ => (if a.ret < 0 then l.refused else l.acknowledged, [])
    | .resetting _ :: _ => (l.cleared, [.cleared l.unreported])
    | _ => (if r'.counts = r.counts then l else l.counted, [])
  | _ => (if r'.counts = r.counts then l else l.counted, [])

def step (s : ReportingRadio f) (e : Radio.Event) : Option (ReportingRadio f × List Action) :=
  (s.radio.step e).map fun (r, as) =>
    let (ledger, os) := account s.radio r s.ledger e
    (⟨r, ledger⟩, as.map .radio ++ os)

/-- Where the energy query comes back, no module was counted for the first time
meanwhile. Where the reset comes back, no packet was counted since the report
before it was sent. -/
def Undisturbed (s : ReportingRadio f) : Radio.Event → Prop
  | .resume a =>
    ∀ g ∈ s.radio.stack.head?,
      (0 ≤ a.ret → ∀ size ∈ g.querySize?, s.radio.counts.numberOfModules = size) ∧
        (g.isReset → s.ledger.after.head? ≠ some true)
  | _ => True

/-- A report is complete and nothing is cleared that was not reported. -/
def WellFormed : Action → Prop
  | .radio (.report numReports reps) => reps.Inside ∧ reps.Complete numReports
  | .cleared unreported => unreported = false
  | _ => True

structure Invariant (s : ReportingRadio f) : Prop where
  known : s.radio.counts.Known
  querying : ∀ reps total, .querying reps total ∈ s.radio.stack →
    ∃ c : PacketCounts, c.Known ∧ reps = startReports c
  inside : ∀ g ∈ s.radio.stack, ∀ reps ∈ g.reports?, reps.Inside
  after : List.Forall₂ (fun g after => (∃ reps, g = Stage.resetting reps) → s.ledger.unreported = true → after = true)
    (s.radio.stack.filter Stage.isSent) s.ledger.after

theorem invariant_boot : Invariant (boot : ReportingRadio f) where
  known := PacketCounts.known_boot
  querying _ _ hmem := absurd hmem List.not_mem_nil
  inside _ hmem := absurd hmem List.not_mem_nil
  after := .nil

section
variable {s s' : ReportingRadio f} {r r' : Radio f} {l : Ledger}

theorem Invariant.quiet (h : Invariant s) {as : List Signpost.Action}
    (hquiet : Radio.Quiet s.radio.counts s.radio.stack r'.counts r'.stack as) :
    Invariant ⟨r', if r'.counts = s.radio.counts then s.ledger else s.ledger.counted⟩ := by
  have hknown := (hquiet.counts h.known).1
  refine ⟨hknown, fun reps total hmem => ?_, fun g hmem reps hreps => ?_, ?_⟩
  · rcases hquiet.stages _ hmem with hmem | hnone | ⟨total', heq⟩
    · exact h.querying reps total hmem
    · cases hnone
    · cases heq
      exact ⟨_, hknown, rfl⟩
  · rcases hquiet.stages g hmem with hmem | hnone | ⟨total', rfl⟩
    · exact h.inside g hmem reps hreps
    · rw [hnone] at hreps
      cases hreps
    · cases hreps
      exact hknown.inside_startReports
  · rw [hquiet.sent]
    split_ifs
    · exact h.after
    · dsimp only [Ledger.counted]
      rw [List.forall₂_map_right_iff]
      exact h.after.imp fun _ _ _ _ _ => rfl

theorem account_quiet {e : Radio.Event}
    (he : ∀ a, e = .resume a → ∀ g stack, r.stack = g :: stack → g.reports? = none) :
    account r r' l e = (if r'.counts = r.counts then l else l.counted, []) := by
  cases e with
  | resume a =>
    unfold account
    dsimp only
    split <;> first | rfl | (next hstack => exact absurd (he a rfl _ _ hstack) (Option.some_ne_none _))
  | message | timer | joinFailed | joined => rfl

/-- The callback goes on with its report: what is below it on the stack stays,
and the account of what waits for a report goes with the stack. -/
theorem Invariant.resumed (h : Invariant s) {g : Stage} {stack : List Stage} (hstack : s.radio.stack = g :: stack)
    (hcounts : r'.counts.Known) (hstage : r'.stack = stack ∨
      ∃ g' reps, r'.stack = g' :: stack ∧ g'.isSent = true ∧ g'.reports? = some reps ∧ reps.Inside)
    (hafter : List.Forall₂
      (fun g after => (∃ reps, g = Stage.resetting reps) → l.unreported = true → after = true)
      (r'.stack.filter Stage.isSent) l.after) : Invariant ⟨r', l⟩ := by
  have hquerying : ∀ reps total, Stage.querying reps total ∈ stack → Stage.querying reps total ∈ s.radio.stack :=
    fun _ _ hmem => hstack ▸ List.mem_cons_of_mem g hmem
  have hinside : ∀ g' ∈ stack, ∀ reps ∈ g'.reports?, reps.Inside :=
    fun g' hmem => h.inside g' (hstack ▸ List.mem_cons_of_mem g hmem)
  rcases hstage with heq | ⟨g', reps', heq, hsent, hreps', hin⟩
  · refine ⟨hcounts, fun reps total hmem => h.querying reps total (hquerying _ _ ?_), fun g' hmem => ?_, hafter⟩
    · rwa [← heq]
    · exact hinside g' (heq ▸ hmem)
  · refine ⟨hcounts, fun reps total hmem => ?_, fun g'' hmem => ?_, hafter⟩
    · rcases List.mem_cons.mp (heq ▸ hmem) with rfl | hmem
      · cases hsent
      · exact h.querying reps total (hquerying _ _ hmem)
    · rcases List.mem_cons.mp (heq ▸ hmem) with rfl | hmem
      · intro reps hreps
        rw [hreps'] at hreps
        cases hreps
        exact hin
      · exact hinside g'' hmem

theorem wellFormed_radio {as : List Signpost.Action} (has : ∀ n reps, .report n reps ∉ as) :
    ∀ a ∈ as.map Action.radio, WellFormed a := by
  intro a ha
  obtain ⟨b, hb, rfl⟩ := List.mem_map.mp ha
  cases b with
  | report n reps => exact absurd hb (has n reps)
  | add | reply | lora | post | sent | failed => trivial

theorem Invariant.step_quiet (h : Invariant s) {e : Radio.Event} {as : List Signpost.Action}
    (he : ∀ a, e = .resume a → ∀ g stack, s.radio.stack = g :: stack → g.reports? = none)
    (hr : s.radio.step e = some (r', as)) :
    Invariant ⟨r', (account s.radio r' s.ledger e).1⟩ ∧
      ∀ a ∈ as.map .radio ++ (account s.radio r' s.ledger e).2, WellFormed a := by
  have hquiet : Radio.Quiet s.radio.counts s.radio.stack r'.counts r'.stack as := by
    by_cases hresume : ∃ a, e = .resume a
    · obtain ⟨a, rfl⟩ := hresume
      obtain ⟨g, stack, hstack, -⟩ := Radio.resume_cases hr
      exact Radio.quiet_resume (he a rfl g stack hstack) hstack hr
    · exact Radio.quiet_step (fun a ha => hresume ⟨a, ha⟩) hr
  rw [account_quiet he, List.append_nil]
  exact ⟨h.quiet hquiet, wellFormed_radio hquiet.reports⟩

section
variable {a : Answer} {reps : EnergyReports} {total : UInt16} {stack : List Stage} {as : List Signpost.Action}

theorem putStatus_kept (h : r.putStatus = (r', as)) :
    r'.counts = r.counts ∧ r'.stack = r.stack ∧ ∀ a ∈ as.map Action.radio, WellFormed a := by
  obtain ⟨status, len, rc, q, -, rfl, rfl⟩ := Radio.putStatus_cases h
  exact ⟨rfl, rfl, wellFormed_radio (by simp)⟩

theorem Invariant.querying_step (h : Invariant s) (hstack : s.radio.stack = .querying reps total :: stack)
    (hsize : 0 ≤ a.ret → s.radio.counts.numberOfModules = reps.size)
    (hr : s.radio.resume a = some (r', as)) :
    Invariant ⟨r', (account s.radio r' s.ledger (.resume a)).1⟩ ∧
      ∀ x ∈ as.map .radio ++ (account s.radio r' s.ledger (.resume a)).2, WellFormed x := by
  have hafter := h.after
  rw [hstack] at hafter
  simp only [account, hstack, List.append_nil]
  simp only [Radio.resume, hstack] at hr
  by_cases hfailed : a.ret < 0
  · rw [if_pos hfailed] at hr
    rw [if_pos hfailed]
    obtain ⟨hcounts, hkept, hformed⟩ := putStatus_kept (Option.some.inj hr)
    refine ⟨h.resumed hstack (hcounts ▸ h.known) (.inl hkept) ?_, hformed⟩
    rw [hkept]
    exact hafter
  · rw [if_neg hfailed] at hr
    rw [if_neg hfailed]
    cases hr
    obtain ⟨c, hc, rfl⟩ := h.querying reps total (hstack ▸ List.mem_cons_self)
    obtain ⟨hinside, hcomplete⟩ := hc.complete_energyShares h.known (hsize (Int.not_lt.mp hfailed))
      (fun energy count => f.share count total energy) a.energyUsedSinceReset
    refine ⟨h.resumed hstack h.known (.inr ⟨_, _, rfl, rfl, rfl, hinside⟩) ?_, fun x hx => ?_⟩
    · exact .cons (by simp) hafter
    · cases List.mem_singleton.mp hx
      exact ⟨hinside, hcomplete⟩

theorem Invariant.reporting_step (h : Invariant s) (hstack : s.radio.stack = .reporting reps :: stack)
    (hr : s.radio.resume a = some (r', as)) :
    Invariant ⟨r', (account s.radio r' s.ledger (.resume a)).1⟩ ∧
      ∀ x ∈ as.map .radio ++ (account s.radio r' s.ledger (.resume a)).2, WellFormed x := by
  have hafter := h.after
  rw [hstack] at hafter
  simp only [account, hstack, List.append_nil]
  simp only [Radio.resume, hstack] at hr
  by_cases hfailed : a.ret < 0
  · rw [if_pos hfailed] at hr
    rw [if_pos hfailed]
    obtain ⟨hcounts, hkept, hformed⟩ := putStatus_kept (Option.some.inj hr)
    refine ⟨h.resumed hstack (hcounts ▸ h.known) (.inl hkept) ?_, hformed⟩
    obtain ⟨b, bs, -, hrest, heq⟩ := List.forall₂_cons_left_iff.mp hafter
    rw [hkept, Ledger.refused, heq]
    exact hrest
  · rw [if_neg hfailed] at hr
    rw [if_neg hfailed]
    cases hr
    have hinside := h.inside (.reporting reps) (hstack ▸ List.mem_cons_self) reps rfl
    refine ⟨h.resumed hstack h.known (.inr ⟨_, _, rfl, rfl, rfl, hinside⟩) ?_, by simp⟩
    obtain ⟨b, bs, -, hrest, heq⟩ := List.forall₂_cons_left_iff.mp hafter
    rw [Ledger.acknowledged, heq, List.headD_cons]
    exact .cons (fun _ hunreported => (Bool.and_eq_true_iff.mp hunreported).2)
      (hrest.imp fun _ _ himp hreset hunreported => himp hreset (Bool.and_eq_true_iff.mp hunreported).1)

theorem Invariant.resetting_step (h : Invariant s) (hstack : s.radio.stack = .resetting reps :: stack)
    (hnone : s.ledger.after.head? ≠ some true) (hr : s.radio.resume a = some (r', as)) :
    Invariant ⟨r', (account s.radio r' s.ledger (.resume a)).1⟩ ∧
      ∀ x ∈ as.map .radio ++ (account s.radio r' s.ledger (.resume a)).2, WellFormed x := by
  have hafter := h.after
  rw [hstack] at hafter
  obtain ⟨b, bs, hb, hrest, heq⟩ := List.forall₂_cons_left_iff.mp hafter
  have hreported : s.ledger.unreported = false := by
    by_contra hunreported
    have htrue := hb ⟨reps, rfl⟩ (by simpa using hunreported)
    exact hnone (by rw [heq, htrue, List.head?_cons])
  simp only [account, hstack]
  simp only [Radio.resume, hstack] at hr
  obtain ⟨hcounts, hkept, hformed⟩ := putStatus_kept (Option.some.inj hr)
  refine ⟨h.resumed hstack ?_ (.inl hkept) ?_, fun x hx => ?_⟩
  · rw [hcounts]
    exact ⟨h.known.le, h.known.slot⟩
  · rw [hkept, Ledger.cleared, heq, List.tail_cons]
    dsimp only
    rw [List.forall₂_map_right_iff]
    exact hrest.imp fun _ _ _ _ hunreported => by cases hunreported
  · rcases List.mem_append.mp hx with hx | hx
    · exact hformed x hx
    · rw [List.mem_singleton.mp hx]
      exact hreported

end

theorem Invariant.step (h : Invariant s) {e : Radio.Event} {o : List Action} (hguard : Undisturbed s e)
    (hstep : s.step e = some (s', o)) : Invariant s' ∧ ∀ a ∈ o, WellFormed a := by
  obtain ⟨⟨r, as⟩, hr, heq⟩ := Option.map_eq_some_iff.mp hstep
  cases heq
  by_cases hquiet : ∀ a, e = .resume a → ∀ g stack, s.radio.stack = g :: stack → g.reports? = none
  · exact h.step_quiet hquiet hr
  · push Not at hquiet
    obtain ⟨a, rfl, g, stack, hstack, hreps⟩ := hquiet
    obtain ⟨hquery, hreset⟩ := hguard g (by rw [hstack]; rfl)
    cases g with
    | querying reps total => exact h.querying_step hstack (fun hret => hquery hret _ rfl) hr
    | reporting reps => exact h.reporting_step hstack hr
    | resetting reps => exact h.resetting_step hstack (hreset rfl) hr
    | checking | rechecking | posting | responding | sending | failing | succeeding | receiving =>
      exact absurd rfl hreps

end

/-- In every run of `radio_app` in which no module is counted for the first time
while an energy query waits, nor any packet between a report and the end of the
reset after it, every report is complete, every write is inside its array, and
no packet is cleared that was not reported. -/
theorem radioApp_reports_well_formed {address : Bytes} {length_address : address.length = 6}
    {share : UInt8 → UInt16 → UInt32 → UInt32} {s : ReportingRadio (radioApp address length_address share)}
    {es : List Radio.Event} {os : List Action}
    (hrun : Run (fun (s : ReportingRadio (radioApp address length_address share)) e s' o =>
      s.step e = some (s', o) ∧ Undisturbed s e) boot es s os) :
    (∀ a ∈ os, WellFormed a) ∧ ∀ g ∈ s.radio.stack, ∀ reps ∈ g.reports?, reps.Inside := by
  have hkeep : ∀ {s : ReportingRadio (radioApp address length_address share)} {e : Radio.Event}
      {s' : ReportingRadio (radioApp address length_address share)} {o : List Action} {es : List Radio.Event},
      Invariant s → s.step e = some (s', o) ∧ Undisturbed s e → Invariant s' ∧ ∀ a ∈ o, WellFormed a :=
    fun hinv ⟨hstep, hguard⟩ => hinv.step hguard hstep
  obtain ⟨hinv, hformed⟩ := hrun.outputs (fun s _ => Invariant s) WellFormed @hkeep invariant_boot
  exact ⟨hformed, hinv.inside⟩

section

instance {f : Firmware} (s : ReportingRadio f) : DecidablePred (Undisturbed s)
  | .resume a =>
    inferInstanceAs (Decidable (∀ g ∈ s.radio.stack.head?,
      (0 ≤ a.ret → ∀ size ∈ g.querySize?, s.radio.counts.numberOfModules = size) ∧
        (g.isReset → s.ledger.after.head? ≠ some true)))
  | .message .. => instDecidableTrue
  | .timer _ => instDecidableTrue
  | .joinFailed => instDecidableTrue
  | .joined => instDecidableTrue

/-- A message of a module is published and sent over LoRa. -/
def sampleSend (module : UInt8) : List Radio.Event :=
  [.message module commandFrame networkingPublishMessage 2 (.ofList [0, 0] 0), .timer true,
    .resume { ret := -1 }, .resume { ret := 0 }, .resume { ret := 0 }, .resume { ret := 0 }]

/-- A packet is sent, and the energy query of a report waits. -/
def sampleQuery : List Radio.Event := .joined :: sampleSend 0x31 ++ List.replicate 29 (.timer true)

/-- Another packet of the module is sent meanwhile; then the report is made. -/
def sampleReport : List Radio.Event :=
  sampleQuery ++ sampleSend 0x31 ++
    [.resume { ret := 0, energyUsedSinceReset := 100 }, .resume { ret := 0 }, .resume { ret := 0 }]

/-- A packet of another module is sent before the report, and one after it. -/
def sampleDisturbed : List Radio.Event :=
  sampleQuery ++ sampleSend 0x32 ++ [.resume { ret := 0, energyUsedSinceReset := 100 }, .resume { ret := 0 }] ++
    sampleSend 0x31 ++ [.resume { ret := 0 }]

theorem one_lt_slots : 1 < numberOfModuleSlots := by decide

/-- Two reports are sent from an array for one: the second has no address, and
its energy is outside. -/
def overruns : Action → Bool
  | .radio (.report numReports reps) =>
    numReports = 2 && reps.size = 1 && (reps.applicationId ⟨1, one_lt_slots⟩).isNone &&
      (reps.energyUsed ⟨1, one_lt_slots⟩).isSome
  | _ => false

def clears (unreported : Bool) : Action → Bool
  | .cleared u => u = unreported
  | _ => false

theorem radioApp_reports_well_formed_sent : ∃ s os,
    Run (fun (s : ReportingRadio sampleApp) e s' o => s.step e = some (s', o) ∧ Undisturbed s e) boot
      sampleReport s os ∧ os.any (clears false) ∧ ∀ a ∈ os, WellFormed a := by
  have hexec : (Run.exec (fun (s : ReportingRadio sampleApp) e => if Undisturbed s e then s.step e else none) boot
      sampleReport).map (fun r => r.2.any (clears false)) = some true := by decide +kernel
  obtain ⟨⟨s, os⟩, hexec, hcleared⟩ := Option.map_eq_some_iff.mp hexec
  have hrun := Run.of_exec_guard hexec
  exact ⟨s, os, hrun, hcleared, (radioApp_reports_well_formed hrun).1⟩

/-- The energy of the second module is written outside the array, its address is
not written, and a packet is cleared that was in no report. -/
theorem radioApp_reports_disturbed : ∃ s os,
    Run (fun (s : ReportingRadio sampleApp) e s' o => s.step e = some (s', o)) boot sampleDisturbed s os ∧
    (∃ numReports reps, .radio (.report numReports reps) ∈ os ∧ ¬ reps.Inside ∧ ¬ reps.Complete numReports) ∧
    .cleared true ∈ os := by
  have hexec : (Run.exec (fun (s : ReportingRadio sampleApp) e => s.step e) boot sampleDisturbed).map
      (fun r => (r.2.any overruns, r.2.any (clears true))) = some (true, true) := by decide +kernel
  obtain ⟨⟨s, os⟩, hexec, heq⟩ := Option.map_eq_some_iff.mp hexec
  obtain ⟨x, hx, hoverruns⟩ := List.any_eq_true.mp (Prod.mk.inj heq).1
  obtain ⟨y, hy, hclears⟩ := List.any_eq_true.mp (Prod.mk.inj heq).2
  refine ⟨s, os, Run.of_exec hexec, ?_, ?_⟩
  · cases x with
    | cleared u => cases hoverruns
    | radio action =>
      cases action with
      | report numReports reps =>
        simp only [overruns, Bool.and_eq_true, decide_eq_true_eq] at hoverruns
        obtain ⟨⟨⟨hnum, hsize⟩, hid⟩, henergy⟩ := hoverruns
        refine ⟨numReports, reps, hx, fun hinside => ?_, fun hcomplete => ?_⟩
        · have hlt := hinside ⟨1, one_lt_slots⟩ (.inr henergy)
          simp [hsize] at hlt
        · have hwritten := (hcomplete.written ⟨1, one_lt_slots⟩ (by simp [hnum])).1
          simp [Option.isNone_iff_eq_none.mp hid] at hwritten
      | add | reply | lora | post | sent | failed => cases hoverruns
  · cases y with
    | cleared u =>
      have hu : u = true := by simpa [clears] using hclears
      exact hu ▸ hy
    | radio action => cases hclears

end

end ReportingRadio

end Signpost
