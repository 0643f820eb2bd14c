/-
The shares of the radio's energy in a report that is made without another
callback in between, against the packets counted since the last one.

A count has eight bits, the table has a slot for eight modules that it never
frees, and there may be no packet at all.

A share is computed in floating point, without rounding errors by hypothesis. So
whether the shares are true is a question about the counts modulo 256, and one
amount of energy decides it.
-/
import Signpost.Lib.Shares
import Signpost.RadioReport

namespace Signpost

open Lib

/-! ## The packets counted -/

/-- `count_module_packet` stops at the first slot that is free or has the module. -/
theorem countFrom_eq (moduleAddress : UInt8) (is : List (Fin numberOfModuleSlots)) (c : PacketCounts) :
    countFrom moduleAddress is c =
      match is.find? fun i => c.moduleNumMap i = 0 ∨ c.moduleNumMap i = moduleAddress with
      | none => c
      | some i =>
        if c.moduleNumMap i = 0 then
          { moduleNumMap := fun j => if j = i then moduleAddress else c.moduleNumMap j
            modulePacketCount := fun j => if j = i then c.modulePacketCount j + 1 else c.modulePacketCount j
            numberOfModules := c.numberOfModules + 1 }
        else
          { c with
            modulePacketCount := fun j => if j = i then c.modulePacketCount j + 1 else c.modulePacketCount j } := by
  induction is with
  | nil => rfl
  | cons i is ih =>
    rw [countFrom]
    by_cases hfree : c.moduleNumMap i = 0
    · rw [if_pos hfree, List.find?_cons_of_pos (by simp [hfree])]
      simp only [if_pos hfree]
    · rw [if_neg hfree]
      by_cases hmodule : c.moduleNumMap i = moduleAddress
      · rw [if_pos hmodule, List.find?_cons_of_pos (by simp [hmodule])]
        simp only [if_neg hfree]
      · rw [if_neg hmodule, ih, List.find?_cons_of_neg (by simp [hfree, hmodule])]

theorem find?_finRange {n : Nat} {p : Fin n → Bool} {i : Fin n} (h : (List.finRange n).find? p = some i) :
    p i ∧ ∀ j < i, ¬ p j := by
  obtain ⟨hi, before, after, hsplit, hbefore⟩ := List.find?_eq_some_iff_append.mp h
  refine ⟨hi, fun j hj => ?_⟩
  have hsorted := List.pairwise_lt_finRange n
  rw [hsplit, List.pairwise_append, List.pairwise_cons] at hsorted
  have hmem : j ∈ before ++ i :: after := hsplit ▸ List.mem_finRange j
  rcases List.mem_append.mp hmem with hmem | hmem
  · simpa using hbefore j hmem
  · rcases List.mem_cons.mp hmem with rfl | hmem
    · exact absurd hj (Fin.lt_irrefl j)
    · exact absurd hj (Fin.lt_asymm (hsorted.2.1.1 j hmem))

namespace PacketCounts

/-- The modules known come first, there are `number_of_modules`, and none has two slots. -/
structure Sound (c : PacketCounts) : Prop extends Known c where
  single : ∀ i j, c.moduleNumMap i = c.moduleNumMap j → c.moduleNumMap i ≠ 0 → i = j

section
variable {c : PacketCounts} {moduleAddress : UInt8}

/-- The slot of a module gets another packet. -/
def again (c : PacketCounts) (i : Fin numberOfModuleSlots) : PacketCounts :=
  { c with modulePacketCount := fun j => if j = i then c.modulePacketCount j + 1 else c.modulePacketCount j }

/-- A module gets a slot, with its first packet. -/
def first (c : PacketCounts) (i : Fin numberOfModuleSlots) (moduleAddress : UInt8) : PacketCounts where
  moduleNumMap := fun j => if j = i then moduleAddress else c.moduleNumMap j
  modulePacketCount := fun j => if j = i then c.modulePacketCount j + 1 else c.modulePacketCount j
  numberOfModules := c.numberOfModules + 1

/-- What counting a packet can do: its module is known, it gets the first free
slot, or there is none. -/
theorem Sound.countModulePacket_cases (h : c.Sound) (haddress : moduleAddress ≠ 0) :
    (∃ i, c.moduleNumMap i = moduleAddress ∧ countModulePacket c moduleAddress = c.again i) ∨
    (∃ i, (∀ j, c.moduleNumMap j ≠ moduleAddress) ∧ c.moduleNumMap i = 0 ∧ (∀ j < i, c.moduleNumMap j ≠ 0) ∧
      countModulePacket c moduleAddress = c.first i moduleAddress) ∨
    ((∀ j, c.moduleNumMap j ≠ moduleAddress ∧ c.moduleNumMap j ≠ 0) ∧ countModulePacket c moduleAddress = c) := by
  rw [countModulePacket, if_neg haddress, countFrom_eq]
  cases hfind : (List.finRange numberOfModuleSlots).find? fun i =>
      c.moduleNumMap i = 0 ∨ c.moduleNumMap i = moduleAddress with
  | none =>
    refine .inr (.inr ⟨fun j => ?_, rfl⟩)
    have hj := List.find?_eq_none.mp hfind j (List.mem_finRange j)
    simp only [decide_eq_true_eq, not_or] at hj
    exact hj.symm
  | some i =>
    obtain ⟨hi, hbefore⟩ := find?_finRange hfind
    simp only [decide_eq_true_eq, not_or] at hi hbefore
    by_cases hfree : c.moduleNumMap i = 0
    · refine .inr (.inl ⟨i, fun j hj => ?_, hfree, fun j hj => (hbefore j hj).1, if_pos hfree⟩)
      -- The slots behind a free one are free.
      by_cases hlt : j < i
      · exact (hbefore j hlt).2 hj
      · have hjfree : ¬ j.val < c.numberOfModules.toNat := fun hlt' =>
          (h.slot i).mpr (Nat.lt_of_le_of_lt (Fin.not_lt.mp hlt) hlt') hfree
        exact (h.slot j).not.mpr hjfree (hj ▸ haddress)
    · exact .inl ⟨i, hi.resolve_left hfree, if_neg hfree⟩

end

/-- The table is sound, and its counts are those of these packets, in eight bits.
A module without a slot has sent none, or there was none free. -/
structure Counts (packets : Bytes) (c : PacketCounts) : Prop where
  sound : c.Sound
  free : ∀ i, c.moduleNumMap i = 0 → c.modulePacketCount i = 0
  count : ∀ i, c.moduleNumMap i ≠ 0 → c.modulePacketCount i = UInt8.ofNat (packets.count (c.moduleNumMap i))
  missed : ∀ a ∈ packets, a ≠ 0 → (∀ i, c.moduleNumMap i ≠ a) → ∀ i, c.moduleNumMap i ≠ 0

section
variable {packets : Bytes} {c : PacketCounts}

theorem ofNat_count_concat (packets : Bytes) (a : UInt8) :
    UInt8.ofNat ((packets ++ [a]).count a) = UInt8.ofNat (packets.count a) + 1 := by
  rw [List.count_append, List.count_singleton_self, UInt8.ofNat_add]
  rfl

theorem count_concat_of_ne (packets : Bytes) {a b : UInt8} (h : b ≠ a) :
    (packets ++ [a]).count b = packets.count b := by
  rw [List.count_append, List.count_singleton, if_neg (by simpa using h.symm), Nat.add_zero]

theorem mem_of_concat {a b : UInt8} (h : b ∈ packets ++ [a]) (hne : b ≠ a) : b ∈ packets := by
  simpa [hne] using h

theorem Counts.again (h : Counts packets c) {i : Fin numberOfModuleSlots} (hi : c.moduleNumMap i ≠ 0) :
    Counts (packets ++ [c.moduleNumMap i]) (c.again i) where
  sound := { le := h.sound.le, slot := h.sound.slot, single := h.sound.single }
  free j hj := by
    have hji : j ≠ i := fun heq => hi (heq ▸ hj)
    exact (if_neg hji).trans (h.free j hj)
  count j hj := by
    show (if j = i then c.modulePacketCount j + 1 else c.modulePacketCount j) =
      UInt8.ofNat ((packets ++ [c.moduleNumMap i]).count (c.moduleNumMap j))
    by_cases hji : j = i
    · subst hji
      rw [if_pos rfl, h.count j hj, ofNat_count_concat]
    · have hne : c.moduleNumMap j ≠ c.moduleNumMap i := fun heq => hji (h.sound.single j i heq hj)
      rw [if_neg hji, h.count j hj, count_concat_of_ne packets hne]
  missed a ha hzero hno := h.missed a (mem_of_concat ha (hno i).symm) hzero hno

theorem Counts.first (h : Counts packets c) {a : UInt8} (ha : a ≠ 0) {i : Fin numberOfModuleSlots}
    (hnew : ∀ j, c.moduleNumMap j ≠ a) (hfree : c.moduleNumMap i = 0) (hbefore : ∀ j < i, c.moduleNumMap j ≠ 0) :
    Counts (packets ++ [a]) (c.first i a) := by
  have hunseen : packets.count a = 0 := List.count_eq_zero.mpr fun hmem => h.missed a hmem ha hnew i hfree
  have hself : (c.first i a).moduleNumMap i = a := if_pos rfl
  have hother : ∀ {j}, j ≠ i → (c.first i a).moduleNumMap j = c.moduleNumMap j := fun hj => if_neg hj
  have hcount : ∀ {j}, j ≠ i → (c.first i a).modulePacketCount j = c.modulePacketCount j := fun hj => if_neg hj
  have hone : (c.first i a).modulePacketCount i = c.modulePacketCount i + 1 := if_pos rfl
  refine ⟨⟨(h.sound.add hfree hbefore ha _).1, fun j k hjk hj => ?_⟩, fun j hj => ?_, fun j hj => ?_,
    fun b hb hzero hno => ?_⟩
  · by_cases hji : j = i
    · by_cases hki : k = i
      · rw [hji, hki]
      · rw [hji, hself, hother hki] at hjk
        exact absurd hjk.symm (hnew k)
    · rw [hother hji] at hjk hj
      by_cases hki : k = i
      · rw [hki, hself] at hjk
        exact absurd hjk (hnew j)
      · rw [hother hki] at hjk
        exact h.sound.single j k hjk hj
  · have hji : j ≠ i := fun heq => ha (hself ▸ heq ▸ hj)
    rw [hother hji] at hj
    rw [hcount hji, h.free j hj]
  · by_cases hji : j = i
    · rw [hji, hself, hone, h.free i hfree, ofNat_count_concat, hunseen]
      rfl
    · rw [hother hji] at hj ⊢
      rw [hcount hji, h.count j hj, count_concat_of_ne packets (hnew j)]
  · have hba : b ≠ a := fun heq => hno i (hself.trans heq.symm)
    -- A packet was missed before only if no slot was free.
    have hno' : ∀ j, c.moduleNumMap j ≠ b := fun j hj => by
      by_cases hji : j = i
      · rw [hji, hfree] at hj
        exact hzero hj.symm
      · exact hno j ((hother hji).trans hj)
    exact absurd hfree (h.missed b (mem_of_concat hb hba) hzero hno' i)

theorem Counts.countModulePacket (h : Counts packets c) (a : UInt8) :
    Counts (packets ++ [a]) (countModulePacket c a) := by
  by_cases ha : a = 0
  · subst ha
    rw [Signpost.countModulePacket, if_pos rfl]
    refine ⟨h.sound, h.free, fun i hi => ?_, fun b hb hzero => h.missed b (mem_of_concat hb hzero) hzero⟩
    rw [h.count i hi, count_concat_of_ne packets hi]
  · rcases h.sound.countModulePacket_cases ha with ⟨i, rfl, heq⟩ | ⟨i, hnew, hfree, hbefore, heq⟩ | ⟨hfull, heq⟩
    · rw [heq]
      exact h.again ha
    · rw [heq]
      exact h.first ha hnew hfree hbefore
    · rw [heq]
      refine ⟨h.sound, h.free, fun i hi => ?_, fun _ _ _ _ i => (hfull i).2⟩
      rw [h.count i hi, count_concat_of_ne packets (hfull i).1]

/-- The packets are counted, one after another. -/
def counted (c : PacketCounts) (packets : Bytes) : PacketCounts := packets.foldl Signpost.countModulePacket c

/-- The counts after a report that was received. -/
def cleared (c : PacketCounts) : PacketCounts := { c with modulePacketCount := fun _ => 0 }

/-- The counts after reports that were received, each of the packets counted before it. -/
def afterReports (past : List Bytes) : PacketCounts :=
  past.foldl (fun c packets => (c.counted packets).cleared) ⟨fun _ => 0, fun _ => 0, 0⟩

theorem Counts.counted {before : Bytes} (h : Counts before c) (packets : Bytes) :
    Counts (before ++ packets) (c.counted packets) := by
  induction packets generalizing before c with
  | nil => simpa [PacketCounts.counted] using h
  | cons a packets ih =>
    rw [List.append_cons]
    exact ih (h.countModulePacket a)

theorem Counts.cleared (h : Counts packets c) : Counts [] c.cleared where
  sound := { le := h.sound.le, slot := h.sound.slot, single := h.sound.single }
  free _ _ := rfl
  count _ _ := rfl
  missed _ ha := absurd ha List.not_mem_nil

theorem counts_boot : Counts [] ⟨fun _ => 0, fun _ => 0, 0⟩ where
  sound := { known_boot with single := fun _ _ _ hi => absurd rfl hi }
  free _ _ := rfl
  count _ hi := absurd rfl hi
  missed _ ha := absurd ha List.not_mem_nil

theorem counts_afterReports (past : List Bytes) : Counts [] (afterReports past) := by
  have hkeep : ∀ {c : PacketCounts}, Counts [] c → Counts [] (past.foldl (fun c packets =>
      (c.counted packets).cleared) c) := by
    induction past with
    | nil => exact id
    | cons packets past ih => exact fun h => ih (h.counted packets).cleared
  exact hkeep counts_boot

end

/-! ## The report -/

section
variable (c : PacketCounts)

def slots : List (Fin numberOfModuleSlots) := (List.finRange numberOfModuleSlots).filter (c.moduleNumMap · ≠ 0)

/-- `packets_total` -/
def packetsTotal : UInt16 :=
  (reportModules c (List.finRange numberOfModuleSlots) (fun _ => 0) ⟨c.numberOfModules, fun _ => none, fun _ => none⟩
    0).2.2

/-- The energy report that is made of these counts and the energy used. -/
def energyReport (f : Firmware) (energy : UInt32) : EnergyReports :=
  energyShares (fun energy count => f.share count c.packetsTotal energy) energy c (List.finRange numberOfModuleSlots)
    (startReports c)

end

section
variable {c : PacketCounts}

theorem reportModules_total (is : List (Fin numberOfModuleSlots)) (status : Mem UInt8) (reps : EnergyReports)
    (total : UInt16) : (reportModules c is status reps total).2.2 =
      (is.takeWhile (c.moduleNumMap · ≠ 0)).foldl (fun t i => t + (c.modulePacketCount i).toUInt16) total := by
  induction is generalizing status reps total with
  | nil => rfl
  | cons i is ih =>
    rw [reportModules]
    by_cases hi : c.moduleNumMap i ≠ 0
    · rw [if_pos hi, ih, takeWhile_of_known hi, List.foldl_cons]
    · rw [if_neg hi, takeWhile_of_free hi]
      rfl

theorem Known.takeWhile_eq_slots (h : c.Known) :
    (List.finRange numberOfModuleSlots).takeWhile (c.moduleNumMap · ≠ 0) = c.slots := by
  refine takeWhile_eq_filter ((List.pairwise_lt_finRange numberOfModuleSlots).imp fun hlt hb => ?_)
  simp only [decide_eq_true_eq] at hb ⊢
  exact (h.slot _).mpr (Nat.lt_trans (Fin.lt_def.mp hlt) ((h.slot _).mp hb))

theorem toNat_foldl (is : List (Fin numberOfModuleSlots)) (total : UInt16)
    (hroom : total.toNat + 255 * is.length < 65536) :
    (is.foldl (fun t i => t + (c.modulePacketCount i).toUInt16) total).toNat =
      total.toNat + (is.map fun i => (c.modulePacketCount i).toNat).sum := by
  induction is generalizing total with
  | nil => simp
  | cons i is ih =>
    have hcount := (c.modulePacketCount i).toNat_lt
    have hadd : (total + (c.modulePacketCount i).toUInt16).toNat = total.toNat + (c.modulePacketCount i).toNat := by
      rw [UInt16.toNat_add, UInt8.toNat_toUInt16]
      simp only [List.length_cons] at hroom
      exact Nat.mod_eq_of_lt (by omega)
    rw [List.length_cons] at hroom
    rw [List.foldl_cons, ih _ (by omega), hadd, List.map_cons, List.sum_cons, Nat.add_assoc]

theorem Known.toNat_packetsTotal (h : c.Known) :
    c.packetsTotal.toNat = (c.slots.map fun i => (c.modulePacketCount i).toNat).sum := by
  have hlength : c.slots.length ≤ 8 := Nat.le_trans (List.length_filter_le ..) (by simp [numberOfModuleSlots])
  rw [packetsTotal, reportModules_total, h.takeWhile_eq_slots, toNat_foldl c.slots 0 (by simp; omega)]
  simp

end

end PacketCounts

namespace Radio

variable {f : Firmware} {r : Radio f}

/-- Every thirtieth time the report part starts, the energy query waits, and a
report is made of the answer. -/
theorem resume_countSend (hdue : r.sendCounter = 29) {a : Answer} (ha : 0 ≤ a.ret) :
    ∃ r', (r.countSend true).resume a =
      some (r', [.report r.counts.numberOfModules (r.counts.energyReport f a.energyUsedSinceReset)]) := by
  have hcount : r.sendCounter + 1 = 30 := by rw [hdue]; rfl
  have hreps := reportModules_eq (c := r.counts) (List.finRange numberOfModuleSlots)
    (r.statusSendBuf.copy statusDataOffset [r.counts.numberOfModules])
    ⟨r.counts.numberOfModules, fun _ => none, fun _ => none⟩ 0
  have htotal : (reportModules r.counts (List.finRange numberOfModuleSlots)
      (r.statusSendBuf.copy statusDataOffset [r.counts.numberOfModules])
      ⟨r.counts.numberOfModules, fun _ => none, fun _ => none⟩ 0).2.2 = r.counts.packetsTotal :=
    (PacketCounts.reportModules_total ..).trans (PacketCounts.reportModules_total ..).symm
  simp only [countSend, hcount, if_true, Bool.not_true, Bool.false_eq_true, if_false, resume,
    if_neg (Int.not_lt.mpr ha), hreps, htotal]
  exact ⟨_, rfl⟩

end Radio

/-! ## True shares -/

/-- A share in floating point has no rounding errors. -/
def ExactShare (share : UInt8 → UInt16 → UInt32 → UInt32) : Prop :=
  ∀ count total energy, total ≠ 0 → count.toNat ≤ total.toNat →
    (share count total energy).toNat = Shares.share energy.toNat count.toNat total.toNat

namespace PacketCounts

/-- The packets of modules among these. -/
def sent (packets : Bytes) : Nat := packets.countP (· ≠ 0)

/-- Each module known is reported with its share of the energy, for the packets that
it has sent of all that were. -/
structure SharesTrue (f : Firmware) (packets : Bytes) (c : PacketCounts) (energy : UInt32) : Prop where
  /-- Nothing is divided by zero. -/
  defined : c.slots ≠ [] → c.packetsTotal ≠ 0
  share : ∀ i ∈ c.slots, (c.energyReport f energy).applicationId i = some (c.moduleNumMap i) ∧
    ∃ s, (c.energyReport f energy).energyUsed i = some s ∧
      s.toNat = Shares.share energy.toNat (packets.count (c.moduleNumMap i)) (sent packets)
  sum : (c.slots.map fun i => ((c.energyReport f energy).energyUsed i).elim 0 UInt32.toNat).sum ≤ energy.toNat

/-- What eight bits leave of the packets of the module in a slot. -/
def wrapped (packets : Bytes) (c : PacketCounts) (i : Fin numberOfModuleSlots) : Nat :=
  packets.count (c.moduleNumMap i) % 256

def wrappedTotal (packets : Bytes) (c : PacketCounts) : Nat := (c.slots.map (wrapped packets c)).sum

/-- If there are modules known, eight bits leave something of their packets, and as
much of each in proportion. -/
def Proportionate (packets : Bytes) (c : PacketCounts) : Prop :=
  ∀ i ∈ c.slots, wrappedTotal packets c ≠ 0 ∧
    packets.count (c.moduleNumMap i) * wrappedTotal packets c = wrapped packets c i * sent packets

section
variable {f : Firmware} {packets : Bytes} {c : PacketCounts} {i : Fin numberOfModuleSlots} {energy : UInt32}

theorem mem_slots : i ∈ c.slots ↔ c.moduleNumMap i ≠ 0 := by simp [slots]

theorem energyReport_slot (h : c.Known) (hi : i ∈ c.slots) (f : Firmware) (energy : UInt32) :
    (c.energyReport f energy).applicationId i = some (c.moduleNumMap i) ∧
      (c.energyReport f energy).energyUsed i = some (f.share (c.modulePacketCount i) c.packetsTotal energy) := by
  have hmem : i ∈ (List.finRange numberOfModuleSlots).takeWhile (c.moduleNumMap · ≠ 0) :=
    h.takeWhile_eq_slots ▸ hi
  rw [energyReport, energyShares_eq]
  exact ⟨if_pos hmem, if_pos hmem⟩

theorem Counts.toNat_count (h : Counts packets c) (hi : i ∈ c.slots) :
    (c.modulePacketCount i).toNat = wrapped packets c i := by
  rw [h.count i (mem_slots.mp hi), UInt8.toNat_ofNat']
  rfl

theorem Counts.toNat_packetsTotal (h : Counts packets c) : c.packetsTotal.toNat = wrappedTotal packets c := by
  rw [h.sound.toKnown.toNat_packetsTotal, wrappedTotal, List.map_congr_left fun i hi => h.toNat_count hi]

theorem Counts.packetsTotal_ne_zero (h : Counts packets c) : c.packetsTotal ≠ 0 ↔ wrappedTotal packets c ≠ 0 := by
  rw [← h.toNat_packetsTotal, ne_eq, ne_eq, ← UInt16.toNat_inj]
  rfl

theorem Counts.toNat_share (h : Counts packets c) (hshare : ExactShare f.share) (hi : i ∈ c.slots)
    (htotal : wrappedTotal packets c ≠ 0) (energy : UInt32) :
    (f.share (c.modulePacketCount i) c.packetsTotal energy).toNat =
      Shares.share energy.toNat (wrapped packets c i) (wrappedTotal packets c) := by
  have hle : (c.modulePacketCount i).toNat ≤ c.packetsTotal.toNat := by
    rw [h.toNat_packetsTotal, h.toNat_count hi]
    exact List.single_le_sum (fun _ _ => Nat.zero_le _) _ (List.mem_map_of_mem hi)
  rw [hshare _ _ _ (h.packetsTotal_ne_zero.mpr htotal) hle, h.toNat_count hi, h.toNat_packetsTotal]

theorem Counts.sum_count_le (h : Counts packets c) :
    (c.slots.map fun i => packets.count (c.moduleNumMap i)).sum ≤ sent packets := by
  have hnodup : (c.slots.map c.moduleNumMap).Nodup :=
    List.Nodup.map_on (fun i hi j _ hij => h.sound.single i j hij (mem_slots.mp hi))
      ((List.nodup_finRange _).filter _)
  have hle := Shares.sum_count_le hnodup (p := fun a => a ≠ 0) (fun a ha => by
    obtain ⟨i, hi, rfl⟩ := List.mem_map.mp ha
    simpa using mem_slots.mp hi) packets
  rwa [List.map_map] at hle

theorem wrappedTotal_lt (packets : Bytes) (c : PacketCounts) : wrappedTotal packets c < 4294967296 := by
  have hlength : c.slots.length ≤ 8 := Nat.le_trans (List.length_filter_le ..) (by simp [numberOfModuleSlots])
  have hle : (c.slots.map (wrapped packets c)).sum ≤ (c.slots.map fun _ => 255).sum :=
    List.sum_le_sum fun i _ => Nat.le_of_lt_succ (Nat.mod_lt _ (by decide))
  rw [List.map_const', List.sum_replicate_nat] at hle
  unfold wrappedTotal
  omega

theorem SharesTrue.of_proportionate (h : Counts packets c) (hshare : ExactShare f.share)
    (hprop : Proportionate packets c) (energy : UInt32) : SharesTrue f packets c energy := by
  have htotal : ∀ {i}, i ∈ c.slots → wrappedTotal packets c ≠ 0 := fun hi => (hprop _ hi).1
  refine ⟨fun hslots => ?_, fun i hi => ?_, ?_⟩
  · obtain ⟨i, hi⟩ := List.exists_mem_of_ne_nil _ hslots
    exact h.packetsTotal_ne_zero.mpr (htotal hi)
  · obtain ⟨hid, hused⟩ := energyReport_slot h.sound.toKnown hi f energy
    have hle : wrappedTotal packets c ≤ sent packets :=
      Nat.le_trans (List.sum_le_sum fun j _ => Nat.mod_le ..) h.sum_count_le
    refine ⟨hid, _, hused, (h.toNat_share hshare hi (htotal hi) energy).trans ?_⟩
    exact Shares.share_eq_of_proportional (htotal hi) (by have := htotal hi; omega) (hprop i hi).2
  · have hshares : (c.slots.map fun i => ((c.energyReport f energy).energyUsed i).elim 0 UInt32.toNat) =
        c.slots.map fun i => Shares.share energy.toNat (wrapped packets c i) (wrappedTotal packets c) :=
      List.map_congr_left fun i hi => by
        rw [(energyReport_slot h.sound.toKnown hi f energy).2, Option.elim_some, h.toNat_share hshare hi (htotal hi)]
    rw [hshares]
    exact Shares.sum_share_le energy.toNat (wrapped packets c)

theorem Proportionate.of_shares (h : Counts packets c) (hshare : ExactShare f.share)
    (htrue : ∀ energy, SharesTrue f packets c energy) : Proportionate packets c := by
  intro i hi
  have htotal : wrappedTotal packets c ≠ 0 :=
    h.packetsTotal_ne_zero.mp ((htrue 0).defined (List.ne_nil_of_mem hi))
  refine ⟨htotal, Shares.proportional_of_share_eq htotal h.sum_count_le (fun j hj => ?_) i hi⟩
  -- Of this much energy a share is the count itself.
  obtain ⟨energy, henergy⟩ : ∃ energy : UInt32, energy.toNat = wrappedTotal packets c :=
    ⟨.ofNat (wrappedTotal packets c), UInt32.toNat_ofNat_of_lt' (wrappedTotal_lt packets c)⟩
  obtain ⟨-, s, hs, hvalue⟩ := (htrue energy).share j hj
  have hs' := (energyReport_slot h.sound.toKnown hj f energy).2.symm.trans hs
  rw [← Option.some.inj hs', h.toNat_share hshare hj htotal, henergy] at hvalue
  exact hvalue

end

end PacketCounts

open PacketCounts

/-- A report that is made without another callback in between: the table is sound,
and the shares of every energy are true exactly if eight bits leave of the packets
of the modules known as much in proportion, which is not nothing. -/
theorem shares_true_iff {f : Firmware} (hshare : ExactShare f.share) (past : List Bytes) (packets : Bytes)
    {r : Radio f} (hcounts : r.counts = (afterReports past).counted packets) (hdue : r.sendCounter = 29) :
    r.counts.Sound ∧
      (∀ a : Answer, 0 ≤ a.ret → ∃ r', (r.countSend true).resume a =
        some (r', [.report r.counts.numberOfModules (r.counts.energyReport f a.energyUsedSinceReset)])) ∧
      ((∀ energy, SharesTrue f packets r.counts energy) ↔ Proportionate packets r.counts) := by
  have hcount : Counts packets r.counts := by
    rw [hcounts]
    simpa using (counts_afterReports past).counted packets
  exact ⟨hcount.sound, fun a ha => Radio.resume_countSend hdue ha,
    fun htrue => .of_shares hcount hshare htrue, fun hprop energy => .of_proportionate hcount hshare hprop energy⟩

/-- Where no count has more than eight bits, all packets are of modules known, and there
are some if a module is known, all shares are true. -/
theorem PacketCounts.Proportionate.of_small {packets : Bytes} {c : PacketCounts}
    (hone : c.slots ≠ [] → sent packets ≠ 0)
    (hsmall : ∀ i ∈ c.slots, packets.count (c.moduleNumMap i) < 256)
    (hall : sent packets = (c.slots.map fun i => packets.count (c.moduleNumMap i)).sum) :
    Proportionate packets c := by
  have hwrapped : ∀ i ∈ c.slots, wrapped packets c i = packets.count (c.moduleNumMap i) :=
    fun i hi => Nat.mod_eq_of_lt (hsmall i hi)
  have htotal : wrappedTotal packets c = sent packets := by
    rw [hall, wrappedTotal, List.map_congr_left hwrapped]
  intro i hi
  rw [htotal, hwrapped i hi]
  exact ⟨hone (List.ne_nil_of_mem hi), rfl⟩

section

theorem exactShare_floorShare : ExactShare floorShare := by
  intro count total energy _ hle
  have hlt : energy.toNat * count.toNat / total.toNat < 2 ^ 32 := by
    refine Nat.lt_of_le_of_lt (Nat.div_le_of_le_mul ?_) energy.toNat_lt
    rw [Nat.mul_comm]
    exact Nat.mul_le_mul_right _ hle
  rw [floorShare, Shares.share, UInt32.toNat_ofNat', Nat.mul_comm, Nat.mod_eq_of_lt hlt]

/-- A report is due, of these packets, after one that was received. -/
def dueRadio (before packets : Bytes) : Radio sampleApp :=
  { Radio.boot with counts := (afterReports [before]).counted packets, sendCounter := 29 }

theorem shares_true_iff_two :
    (dueRadio [] [0x31, 0x32, 0x31]).counts.Sound ∧
      (∀ a : Answer, 0 ≤ a.ret → ∃ r', ((dueRadio [] [0x31, 0x32, 0x31]).countSend true).resume a =
        some (r', [.report (dueRadio [] [0x31, 0x32, 0x31]).counts.numberOfModules
          ((dueRadio [] [0x31, 0x32, 0x31]).counts.energyReport sampleApp a.energyUsedSinceReset)])) ∧
      ∀ energy, SharesTrue sampleApp [0x31, 0x32, 0x31] (dueRadio [] [0x31, 0x32, 0x31]).counts energy := by
  obtain ⟨hsound, hreport, hshares⟩ :=
    shares_true_iff exactShare_floorShare [[]] [0x31, 0x32, 0x31] (r := dueRadio [] [0x31, 0x32, 0x31]) rfl rfl
  have hprop : Proportionate [0x31, 0x32, 0x31] (dueRadio [] [0x31, 0x32, 0x31]).counts := by
    unfold Proportionate
    decide +kernel
  exact ⟨hsound, hreport, hshares.mpr hprop⟩

/-- A packet of one module, and 256 of another. -/
def manyPackets : Bytes := 0x32 :: List.replicate 256 0x31

/-- All of the energy is reported for the one packet. After a report, no packet is
sent until the next: zero is divided by zero. -/
theorem shares_wrapped :
    ¬ SharesTrue sampleApp manyPackets (dueRadio [] manyPackets).counts 1 ∧
      ¬ SharesTrue sampleApp [] (dueRadio [0x31] []).counts 1 := by
  refine ⟨fun h => ?_, fun h => ?_⟩
  · have hslot : (⟨0, by decide⟩ : Fin numberOfModuleSlots) ∈ (dueRadio [] manyPackets).counts.slots := by
      decide +kernel
    obtain ⟨-, s, hs, hvalue⟩ := h.share _ hslot
    have hone : ((dueRadio [] manyPackets).counts.energyReport sampleApp 1).energyUsed ⟨0, by decide⟩ = some 1 := by
      decide +kernel
    rw [← Option.some.inj (hone.symm.trans hs)] at hvalue
    exact absurd hvalue (by decide +kernel)
  · exact h.defined (by decide +kernel) (by decide +kernel)

end

end Signpost
