/-
An energy report on its way: the message that `signpost_energy_report` packs,
whose size is computed in eight bits, and the report that the controller unpacks,
whose size is that of the first byte of the message.

Packing and unpacking are compared as functions of memory: what is behind the
message in the buffer is read with it if the first byte says so, and can happen
to be the rest of the report.
-/
import Signpost.EnergyHandlers

namespace Signpost

open Lib

/-! ## Entries in memory -/

/-- `signpost_energy_report_module_t`, which is packed. -/
def ReportEntry.bytes (entry : ReportEntry) : Bytes := le16 entry.applicationId ++ le32 entry.energyUsed

@[simp] theorem ReportEntry.length_bytes (entry : ReportEntry) : entry.bytes.length = 6 := rfl

theorem ReportEntry.bytes_injective : Function.Injective ReportEntry.bytes := by
  intro a b h
  obtain ⟨hid, henergy⟩ := List.append_inj h rfl
  have hid : a.applicationId = b.applicationId := le16_injective hid
  have henergy : a.energyUsed = b.energyUsed := by
    rw [← u32_copy_le32 (fun _ => 0) 0 a.energyUsed, henergy, u32_copy_le32]
  cases a
  cases b
  simp_all

/-- The entries of an array in memory. -/
def packed (entries : List ReportEntry) : Bytes := entries.flatMap ReportEntry.bytes

theorem length_packed (entries : List ReportEntry) : (packed entries).length = 6 * entries.length := by
  simp [packed, List.length_flatMap, Nat.mul_comm]

theorem packed_inj {as bs : List ReportEntry} (hlength : as.length = bs.length) :
    packed as = packed bs ↔ as = bs := by
  refine ⟨fun h => ?_, fun h => h ▸ rfl⟩
  induction as generalizing bs with
  | nil => exact (List.eq_nil_of_length_eq_zero hlength.symm).symm
  | cons a as ih =>
    obtain ⟨b, bs, rfl⟩ := List.exists_cons_of_length_eq_add_one hlength.symm
    simp only [packed, List.flatMap_cons] at h
    obtain ⟨hfirst, hrest⟩ := List.append_inj h rfl
    rw [ReportEntry.bytes_injective hfirst, ih (Nat.succ.inj hlength) hrest]

/-! ## The message -/

/-- `signpost_energy_report_t`, with as many entries as it says. -/
structure EnergyReport where
  numReports : UInt8
  reports : List ReportEntry
  length_reports : reports.length = numReports.toNat

theorem EnergyReport.ext {a b : EnergyReport} (hnum : a.numReports = b.numReports) (hreports : a.reports = b.reports) :
    a = b := by
  cases a
  cases b
  simp_all

namespace EnergyReport

variable (report : EnergyReport)

/-- `reports_size` -/
def reportsSize : UInt8 := report.numReports * 6

/-- What `signpost_energy_report` sends, if it has memory for it. -/
def message : Bytes :=
  let reportBufSize : UInt8 := report.reportsSize + 1
  (report.numReports :: (packed report.reports).take report.reportsSize.toNat).take reportBufSize.toNat

theorem toNat_reportsSize : report.reportsSize.toNat = 6 * report.numReports.toNat % 256 := by
  rw [reportsSize, UInt8.toNat_mul, Nat.mul_comm]
  rfl

theorem length_packed : (packed report.reports).length = 6 * report.numReports.toNat := by
  rw [Signpost.length_packed, report.length_reports]

theorem message_eq :
    report.message = report.numReports :: (packed report.reports).take (6 * report.numReports.toNat % 256) := by
  have hsize := report.toNat_reportsSize
  have hbuf : (report.reportsSize + 1).toNat = report.reportsSize.toNat + 1 := by
    rw [UInt8.toNat_add]
    exact Nat.mod_eq_of_lt (by simp only [UInt8.reduceToNat]; omega)
  simp only [message, hbuf, List.take_succ_cons, List.take_take, Nat.min_self, hsize]

theorem length_message : report.message.length = 1 + 6 * report.numReports.toNat % 256 := by
  rw [message_eq, List.length_cons, List.length_take, length_packed]
  omega

end EnergyReport

namespace EnergyController

open EnergyPolicy

/-- The report that `energy_api_callback` makes of a message. -/
def receivedReport (message : Mem UInt8) : EnergyReport where
  numReports := message 0
  reports := entriesOf message
  length_reports := by simp [entriesOf]

structure ReportsEnergy (head : Head) : Prop where
  apiType : head.apiType = energyApiType
  frameType : head.frameType = commandFrame
  messageType : head.messageType = energyReportModuleConsumptionMessage

theorem energyApiCallback_report {head : Head} (h : ReportsEnergy head) (s : EnergyController) (message : Mem UInt8)
    (r : Readings) (replied : Bool) :
    s.energyApiCallback head message r replied =
      (updateEnergyFromReport s.controller.moduleInfo (s.sender head) (receivedReport message).reports s.policy).map
        fun p => ({ s with policy := p }, [.energyReport 1]) := by
  have hframe : ¬ commandFrame = notificationFrame := by decide
  have hquery : ¬ energyReportModuleConsumptionMessage = energyQueryMessage := by decide
  rw [energyApiCallback, if_neg (not_not.mpr h.apiType), h.frameType, if_neg hframe, if_pos rfl, energyCommand,
    h.messageType, if_neg hquery, if_pos rfl]
  rfl

/-! ## What is read of a message -/

theorem bytes_entryAt (message : Mem UInt8) (j : Nat) : (entryAt message j).bytes = message.read (1 + 6 * j) 6 := by
  have hid : message.read (1 + 6 * j) 2 = [message (1 + 6 * j), message (2 + 6 * j)] := by
    rw [show 2 + 6 * j = 1 + 6 * j + 1 by omega]
    rfl
  have henergy : le32 (u32 message (3 + 6 * j)) = message.read (1 + 6 * j + 2) 4 := by
    rw [le32_u32, Nat.add_right_comm]
  rw [Mem.read_add message (1 + 6 * j) 2 4, hid, ← henergy, ReportEntry.bytes, entryAt, le16_ofLe16]

theorem packed_entriesOf (message : Mem UInt8) :
    packed (entriesOf message) = message.read 1 (6 * (message 0).toNat) := by
  unfold entriesOf packed
  induction (message 0).toNat with
  | zero => rfl
  | succ n ih =>
    rw [List.range_succ, List.map_append, List.flatMap_append, ih, Nat.mul_succ, Mem.read_add, List.map_cons,
      List.map_nil, List.flatMap_singleton, bytes_entryAt]

theorem receivedReport_eq_iff {message : Mem UInt8} {report : EnergyReport} :
    receivedReport message = report ↔
      message.read 0 (1 + 6 * report.numReports.toNat) = report.numReports :: packed report.reports := by
  have hread : message.read 0 (1 + 6 * report.numReports.toNat) =
      message 0 :: message.read 1 (6 * report.numReports.toNat) := Mem.read_add ..
  rw [hread, List.cons.injEq]
  constructor
  · rintro rfl
    exact ⟨rfl, (packed_entriesOf message).symm⟩
  · rintro ⟨hnum, hpacked⟩
    have hlength : (entriesOf message).length = report.reports.length := by
      rw [report.length_reports, ← hnum]
      simp [entriesOf]
    refine EnergyReport.ext hnum ((packed_inj hlength).mp ?_)
    rw [packed_entriesOf, hnum, hpacked]

/-- The message buffer behind the message happens to hold the rest of the entries. -/
def Leftover (report : EnergyReport) (buf : Mem UInt8) : Prop :=
  buf.read report.message.length (1 + 6 * report.numReports.toNat - report.message.length) =
    (packed report.reports).drop (6 * report.numReports.toNat % 256)

/-- A report is received as it was made exactly if its size fits, or what is left
in the buffer makes up for it. -/
theorem receivedReport_message_iff {report : EnergyReport} {buf : Mem UInt8}
    (hbuf : buf.read 0 report.message.length = report.message) :
    receivedReport buf = report ↔ report.numReports ≤ 42 ∨ Leftover report buf := by
  have hlength := report.length_message
  have hsplit : report.numReports :: packed report.reports =
      report.message ++ (packed report.reports).drop (6 * report.numReports.toNat % 256) := by
    rw [report.message_eq, List.cons_append, List.take_append_drop]
  have hleft : receivedReport buf = report ↔ Leftover report buf := by
    obtain ⟨rest, hrest⟩ : ∃ rest, 1 + 6 * report.numReports.toNat = report.message.length + rest :=
      Nat.exists_eq_add_of_le (by omega)
    rw [receivedReport_eq_iff, hsplit, Leftover, hrest, Mem.read_add, hbuf, Nat.zero_add, Nat.add_sub_cancel_left,
      List.append_right_inj]
  rw [hleft]
  refine ⟨.inr, fun h => h.elim (fun hle => ?_) id⟩
  have hle : report.numReports.toNat ≤ 42 := UInt8.le_iff_toNat_le.mp hle
  have hall : 6 * report.numReports.toNat % 256 = 6 * report.numReports.toNat := Nat.mod_eq_of_lt (by omega)
  rw [Leftover, hlength, hall, Nat.sub_self, Mem.read_zero, ← report.length_packed, List.drop_length]

/-- What the handler unpacks depends on nothing behind the message. -/
def ReadsWithin (message : Mem UInt8) (messageLength : Nat) : Prop :=
  ∀ other, other.read 0 messageLength = message.read 0 messageLength → receivedReport other = receivedReport message

theorem readsWithin_iff (message : Mem UInt8) (messageLength : Nat) :
    ReadsWithin message messageLength ↔ 1 + 6 * (message 0).toNat ≤ messageLength := by
  have hself : message.read 0 (1 + 6 * (receivedReport message).numReports.toNat) =
      (receivedReport message).numReports :: packed (receivedReport message).reports :=
    receivedReport_eq_iff.mp rfl
  constructor
  · intro h
    by_contra hlt
    -- Another byte behind the message is another report.
    obtain ⟨other, hother⟩ : ∃ other, other = message.copy messageLength [message messageLength + 1] := ⟨_, rfl⟩
    have hagree : other.read 0 messageLength = message.read 0 messageLength := by
      rw [hother]
      exact Mem.read_copy_disjoint (.inl (by omega))
    have hread := receivedReport_eq_iff.mp (h other hagree)
    rw [← hself, Mem.read_eq_iff] at hread
    have hbyte := hread messageLength (Nat.lt_of_not_le hlt)
    have hcell : message.copy messageLength [message messageLength + 1] (messageLength + 0) =
        message messageLength + 1 := Mem.copy_at (by simp)
    rw [Nat.zero_add, hother] at hbyte
    rw [Nat.add_zero, hbyte] at hcell
    simp at hcell
  · intro hle other hother
    refine receivedReport_eq_iff.mpr ?_
    rw [← hself, Mem.read_eq_iff]
    intro i hi
    exact Mem.read_eq_iff.mp hother i (Nat.lt_of_lt_of_le hi hle)

/-- Of what `signpost_energy_report` sends, the policy is given the report exactly if
there are at most 42 entries, or the buffer happens to hold the rest of them; and the
handler reads only what was received exactly if the first byte says no more than
there is. -/
theorem report_round_trip_iff {head : Head} (hhead : ReportsEnergy head) {report : EnergyReport} {buf : Mem UInt8}
    (hbuf : buf.read 0 report.message.length = report.message) :
    (∀ s message r replied, energyApiCallback s head message r replied =
      (updateEnergyFromReport s.controller.moduleInfo (s.sender head) (receivedReport message).reports s.policy).map
        fun p => ({ s with policy := p }, [.energyReport 1])) ∧
    (receivedReport buf = report ↔ report.numReports ≤ 42 ∨ Leftover report buf) ∧
    ∀ message messageLength, ReadsWithin message messageLength ↔ 1 + 6 * (message 0).toNat ≤ messageLength :=
  ⟨energyApiCallback_report hhead, receivedReport_message_iff hbuf, readsWithin_iff⟩

section

theorem length_replicate_43 : (List.replicate 43 (⟨0x31, 7⟩ : ReportEntry)).length = (43 : UInt8).toNat := rfl

/-- The same entry 43 times: two of its 258 bytes are sent. -/
def longReport : EnergyReport := ⟨43, List.replicate 43 ⟨0x31, 7⟩, length_replicate_43⟩

def reportHead : Head := ⟨0x22, commandFrame, energyApiType, energyReportModuleConsumptionMessage⟩

theorem reportsEnergy_reportHead : ReportsEnergy reportHead := ⟨rfl, rfl, rfl⟩

def shortReport : EnergyReport := ⟨2, [⟨0x31, 7⟩, ⟨0x32, 300⟩], rfl⟩

theorem report_round_trip_iff_short :
    (∀ s message r replied, energyApiCallback s reportHead message r replied =
      (updateEnergyFromReport s.controller.moduleInfo (s.sender reportHead) (receivedReport message).reports
        s.policy).map fun p => ({ s with policy := p }, [.energyReport 1])) ∧
    receivedReport (Mem.ofList shortReport.message 0) = shortReport ∧
    ReadsWithin (Mem.ofList shortReport.message 0) 13 := by
  obtain ⟨hcallback, hreceived, hreads⟩ :=
    report_round_trip_iff reportsEnergy_reportHead (Mem.read_ofList shortReport.message 0)
  exact ⟨hcallback, hreceived.mpr (.inl (by decide)), (hreads _ _).mpr (by decide)⟩

/-- The controller is sent three bytes of 43 entries; of a message of one byte it
reads six more. -/
theorem report_cut_off :
    longReport.message = [43, 0x31, 0] ∧ receivedReport (Mem.ofList longReport.message 0) ≠ longReport ∧
      ¬ ReadsWithin (Mem.ofList [1] 0) 1 := by
  refine ⟨by decide, fun h => ?_, fun h => ?_⟩
  · have hentries : entriesOf (Mem.ofList longReport.message 0) = longReport.reports :=
      congrArg EnergyReport.reports h
    exact absurd (congrArg List.head? hentries) (by decide)
  · exact absurd ((readsWithin_iff _ _).mp h) (by decide)

end

end EnergyController

end Signpost
