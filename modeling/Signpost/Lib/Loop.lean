/-
A loop: from a state it goes on to another, or it is done with a result. One that
goes on for ever has no result.

A scan is a loop over an index of eight bits, which begins again behind the last.

The rule for its results is that of an invariant, and a measure that gets
smaller shows that there is one.
-/
import Mathlib.Data.Nat.Find

namespace Lib

variable {S R : Type}

namespace Loop

/-- The loop is done after so many steps, with this result. -/
inductive Ends (step : S → S ⊕ R) : S → Nat → R → Prop
  | done {s r} : step s = .inr r → Ends step s 0 r
  | next {s s' n r} : step s = .inl s' → Ends step s' n r → Ends step s (n + 1) r

variable {step : S → S ⊕ R} {s : S} {n m : Nat} {r r' : R}

theorem Ends.unique (h : Ends step s n r) (h' : Ends step s m r') : n = m ∧ r = r' := by
  induction h generalizing m with
  | done hs =>
    cases h' with
    | done hs' => exact ⟨rfl, Sum.inr.inj (hs.symm.trans hs')⟩
    | next hs' => cases hs.symm.trans hs'
  | next hs _ ih =>
    cases h' with
    | done hs' => cases hs.symm.trans hs'
    | next hs' hr' =>
      obtain rfl := Sum.inl.inj (hs.symm.trans hs')
      obtain ⟨rfl, rfl⟩ := ih hr'
      exact ⟨rfl, rfl⟩

theorem Ends.invariant {Inv : S → Prop} (hstep : ∀ {s s'}, Inv s → step s = .inl s' → Inv s')
    (h : Ends step s n r) (hs : Inv s) : ∃ s', Inv s' ∧ step s' = .inr r := by
  induction h with
  | done hdone => exact ⟨_, hs, hdone⟩
  | next hnext _ ih => exact ih (hstep hs hnext)

theorem exists_ends {Inv : S → Prop} (measure : S → Nat)
    (hstep : ∀ {s s'}, Inv s → step s = .inl s' → Inv s' ∧ measure s' < measure s) (hs : Inv s) :
    ∃ n r, n ≤ measure s ∧ Ends step s n r := by
  induction hm : measure s using Nat.strongRecOn generalizing s with
  | ind k ih =>
    cases hnext : step s with
    | inr r => exact ⟨0, r, Nat.zero_le _, .done hnext⟩
    | inl s' =>
      obtain ⟨hs', hlt⟩ := hstep hs hnext
      obtain ⟨n, r, hn, hends⟩ := ih (measure s') (hm ▸ hlt) hs' rfl
      exact ⟨n + 1, r, by omega, .next hnext hends⟩

/-! ## Scans -/

/-- The scan is done where it finds something. -/
def scan (find : UInt8 → Option R) (i : UInt8) : UInt8 ⊕ R :=
  match find i with
  | some r => .inr r
  | none => .inl (i + 1)

variable {find : UInt8 → Option R} {i : UInt8}

theorem ends_scan_iff_from :
    Ends (scan find) i n r ↔ find (i + UInt8.ofNat n) = some r ∧ ∀ j < n, find (i + UInt8.ofNat j) = none := by
  have hzero : ∀ i : UInt8, i + UInt8.ofNat 0 = i := UInt8.add_zero
  have hsucc : ∀ (i : UInt8) (k : Nat), i + UInt8.ofNat (k + 1) = i + 1 + UInt8.ofNat k := fun i k => by
    rw [UInt8.ofNat_add, UInt8.add_assoc, UInt8.add_comm (UInt8.ofNat k)]
    rfl
  constructor
  · intro h
    induction n generalizing i with
    | zero =>
      cases h with
      | done hdone =>
        rw [hzero]
        refine ⟨?_, fun j hj => absurd hj (Nat.not_lt_zero j)⟩
        unfold scan at hdone
        split at hdone
        · next hfind => exact hfind.trans (congrArg some (Sum.inr.inj hdone))
        · cases hdone
    | succ n ih =>
      cases h with
      | next hnext hends =>
        unfold scan at hnext
        split at hnext
        · cases hnext
        · next hnone =>
          obtain rfl := Sum.inl.inj hnext
          obtain ⟨hfind, hbefore⟩ := ih hends
          rw [hsucc]
          refine ⟨hfind, fun j hj => ?_⟩
          cases j with
          | zero => rwa [hzero]
          | succ j =>
            rw [hsucc]
            exact hbefore j (Nat.lt_of_succ_lt_succ hj)
  · rintro ⟨hfind, hbefore⟩
    induction n generalizing i with
    | zero =>
      rw [hzero] at hfind
      exact .done (by rw [scan, hfind])
    | succ n ih =>
      have hnone := hbefore 0 (Nat.succ_pos n)
      rw [hzero] at hnone
      rw [hsucc] at hfind
      refine .next (by rw [scan, hnone]) (ih hfind fun j hj => ?_)
      rw [← hsucc]
      exact hbefore (j + 1) (Nat.succ_lt_succ hj)

/-- A scan from the first index on is done at the first index where there is something to
find; else it goes round for ever. -/
theorem ends_scan_iff :
    Ends (scan find) 0 n r ↔ n < 256 ∧ find (UInt8.ofNat n) = some r ∧ ∀ j < n, find (UInt8.ofNat j) = none := by
  simp only [ends_scan_iff_from, UInt8.zero_add]
  refine ⟨fun ⟨hfind, hbefore⟩ => ⟨?_, hfind, hbefore⟩, fun ⟨_, hfind, hbefore⟩ => ⟨hfind, hbefore⟩⟩
  refine Nat.lt_of_not_le fun hle => ?_
  -- It was there before, one round ago.
  have hround : UInt8.ofNat n = UInt8.ofNat (n - 256) := by
    refine UInt8.toNat_inj.mp ?_
    rw [UInt8.toNat_ofNat', UInt8.toNat_ofNat']
    omega
  have hnone := hbefore (n - 256) (by omega)
  rw [← hround, hfind] at hnone
  cases hnone

theorem exists_ends_scan {k : UInt8} (hk : find k ≠ none) :
    ∃ n r, n ≤ k.toNat ∧ Ends (scan find) 0 n r := by
  classical
  have hex : ∃ n, find (UInt8.ofNat n) ≠ none := ⟨k.toNat, by rwa [UInt8.ofNat_toNat]⟩
  obtain ⟨r, hr⟩ := Option.ne_none_iff_exists'.mp (Nat.find_spec hex)
  have hle : Nat.find hex ≤ k.toNat := Nat.find_min' hex (by rwa [UInt8.ofNat_toNat])
  refine ⟨Nat.find hex, r, hle, ends_scan_iff.mpr ⟨Nat.lt_of_le_of_lt hle k.toNat_lt, hr, fun j hj => ?_⟩⟩
  exact Decidable.not_not.mp (Nat.find_min hex hj)

end Loop

end Lib
