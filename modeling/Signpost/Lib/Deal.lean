/-
Dealing out a quantity to accounts that have a cap. In a round each account of a
list gets the same share, up to the cap; what is over the cap is split, rounded
down, among those that took their share, in another round, until there is
nothing to split or nobody takes any more.

No round creates anything, and what rounding loses is bounded by how many
accounts there are.
-/
import Mathlib.Algebra.Ring.Int.Defs
import Mathlib.Data.Int.Basic
import Mathlib.Data.List.Nodup
import Mathlib.Logic.Function.Basic

namespace Lib

variable {ι : Type} [DecidableEq ι]

namespace Deal

def total (s : List ι) (a : ι → Int) : Int := (s.map a).sum

/-- What a round leaves: the accounts, what was over the cap, the accounts that
took their share, and what each was given, negative where it was cut. -/
structure Round (ι : Type) where
  accounts : ι → Int
  spill : Int
  takers : List ι
  given : List (ι × Int)

/-- A round over these accounts. -/
def round (cap share : Int) : List ι → (ι → Int) → Round ι
  | [], a => ⟨a, 0, [], []⟩
  | i :: rest, a =>
    if cap < a i + share then
      let r := round cap share rest (Function.update a i cap)
      { r with spill := a i + share - cap + r.spill, given := (i, cap - a i) :: r.given }
    else
      let r := round cap share rest (Function.update a i (a i + share))
      { r with takers := i :: r.takers, given := (i, share) :: r.given }

/-- What the rounds leave: the accounts, what nobody took, and what was given. -/
structure Dealt (ι : Type) where
  accounts : ι → Int
  left : Int
  given : List (ι × Int)

def rounds (cap : Int) : Nat → Int → List ι → (ι → Int) → Dealt ι
  | 0, _, _, a => ⟨a, 0, []⟩
  | n + 1, share, l, a =>
    if 0 < share then
      let r := round cap share l a
      if r.takers = [] then ⟨r.accounts, r.spill, r.given⟩
      else
        let d := rounds cap n (r.spill / r.takers.length) r.takers r.accounts
        { d with given := r.given ++ d.given }
    else ⟨a, 0, []⟩

/-- What an account was given in all. -/
def gain (given : List (ι × Int)) (i : ι) : Int := ((given.filter (·.1 = i)).map (·.2)).sum

/-! ## A change of one account -/

theorem total_update_of_notMem {s : List ι} {a : ι → Int} {i : ι} {v : Int} (h : i ∉ s) :
    total s (Function.update a i v) = total s a := by
  unfold total
  congr 1
  refine List.map_congr_left fun j hj => Function.update_of_ne ?_ v a
  rintro rfl
  exact h hj

theorem total_update {s : List ι} (hs : s.Nodup) {a : ι → Int} {i : ι} {v : Int} (h : i ∈ s) :
    total s (Function.update a i v) = total s a + (v - a i) := by
  induction s with
  | nil => cases h
  | cons j s ih =>
    obtain ⟨hj, hs⟩ := List.nodup_cons.mp hs
    rcases List.mem_cons.mp h with rfl | h
    · have hrest := total_update_of_notMem (a := a) (v := v) hj
      simp only [total, List.map_cons, List.sum_cons, Function.update_self] at hrest ⊢
      omega
    · have hne : j ≠ i := by
        rintro rfl
        exact hj h
      have hrest := ih hs h
      simp only [total, List.map_cons, List.sum_cons, Function.update_of_ne hne] at hrest ⊢
      omega

theorem gain_cons (given : List (ι × Int)) (i j : ι) (v : Int) :
    gain ((j, v) :: given) i = (if j = i then v else 0) + gain given i := by
  by_cases h : j = i <;> simp [gain, h]

theorem gain_append (given given' : List (ι × Int)) (i : ι) :
    gain (given ++ given') i = gain given i + gain given' i := by
  simp [gain]

/-! ## A round -/

section
variable {cap share : Int} {l s : List ι} {a : ι → Int}

theorem round_takers_sublist : (round cap share l a).takers.Sublist l := by
  induction l generalizing a with
  | nil => exact .slnil
  | cons i rest ih =>
    unfold round
    split
    · exact ih.cons i
    · exact ih.cons_cons i

theorem round_spill_nonneg : 0 ≤ (round cap share l a).spill := by
  induction l generalizing a with
  | nil => exact Int.le_refl 0
  | cons i rest ih =>
    unfold round
    split
    · have := ih (a := Function.update a i cap)
      simp only
      omega
    · exact ih

/-- If anything is over the cap, then somebody did not take a share. -/
theorem round_takers_length (h : 0 < (round cap share l a).spill) :
    (round cap share l a).takers.length < l.length := by
  induction l generalizing a with
  | nil => simp [round] at h
  | cons i rest ih =>
    unfold round at h ⊢
    split
    · have htakers : (round cap share rest (Function.update a i cap)).takers.Sublist rest := round_takers_sublist
      have hlength := htakers.length_le
      simp only [List.length_cons]
      omega
    · next hfits =>
      rw [if_neg hfits] at h
      exact Nat.succ_lt_succ (ih h)

theorem total_round (hs : s.Nodup) (hl : ∀ i ∈ l, i ∈ s) :
    total s (round cap share l a).accounts + (round cap share l a).spill =
      total s a + share * l.length := by
  induction l generalizing a with
  | nil => simp [round]
  | cons i rest ih =>
    have hrest : ∀ j ∈ rest, j ∈ s := fun j hj => hl j (List.mem_cons_of_mem i hj)
    have hi := hl i List.mem_cons_self
    unfold round
    split
    · have h := ih (a := Function.update a i cap) hrest
      rw [total_update hs hi] at h
      simp only [List.length_cons, Int.natCast_succ, Int.mul_add, Int.mul_one]
      omega
    · have h := ih (a := Function.update a i (a i + share)) hrest
      rw [total_update hs hi] at h
      simp only [List.length_cons, Int.natCast_succ, Int.mul_add, Int.mul_one]
      omega

theorem round_of_notMem {i : ι} (h : i ∉ l) : (round cap share l a).accounts i = a i := by
  induction l generalizing a with
  | nil => rfl
  | cons j rest ih =>
    obtain ⟨hne, hrest⟩ := not_or.mp (fun hm => h (List.mem_cons.mpr hm))
    unfold round
    split
    · exact (ih hrest).trans (Function.update_of_ne hne _ a)
    · exact (ih hrest).trans (Function.update_of_ne hne _ a)

/-- After a round an account that was in it is at most the cap, and one that took
nothing is at the cap. -/
theorem round_accounts (hl : l.Nodup) {i : ι} (h : i ∈ l) :
    (round cap share l a).accounts i ≤ cap ∧
      (i ∉ (round cap share l a).takers → (round cap share l a).accounts i = cap) := by
  induction l generalizing a with
  | nil => cases h
  | cons j rest ih =>
    obtain ⟨hj, hrest⟩ := List.nodup_cons.mp hl
    unfold round
    split
    · rcases List.mem_cons.mp h with rfl | h
      · rw [round_of_notMem hj, Function.update_self]
        exact ⟨Int.le_refl cap, fun _ => rfl⟩
      · exact ih hrest h
    · next hfits =>
      rcases List.mem_cons.mp h with rfl | h
      · rw [round_of_notMem hj, Function.update_self]
        exact ⟨by omega, fun hn => absurd List.mem_cons_self hn⟩
      · obtain ⟨hle, heq⟩ := ih (a := Function.update a j (a j + share)) hrest h
        exact ⟨hle, fun hn => heq fun hm => hn (List.mem_cons_of_mem j hm)⟩

theorem round_of_taker (hl : l.Nodup) {i : ι} (h : i ∈ (round cap share l a).takers) :
    (round cap share l a).accounts i = a i + share := by
  induction l generalizing a with
  | nil => cases h
  | cons j rest ih =>
    obtain ⟨hj, hrest⟩ := List.nodup_cons.mp hl
    unfold round at h ⊢
    split
    · next hover =>
      rw [if_pos hover] at h
      have hne : i ≠ j := by
        rintro rfl
        exact hj (round_takers_sublist.subset h)
      exact (ih hrest h).trans (by rw [Function.update_of_ne hne])
    · next hfits =>
      rw [if_neg hfits] at h
      rcases List.mem_cons.mp h with rfl | h
      · exact (round_of_notMem hj).trans (Function.update_self ..)
      · have hne : i ≠ j := by
          rintro rfl
          exact hj (round_takers_sublist.subset h)
        exact (ih hrest h).trans (by rw [Function.update_of_ne hne])

theorem round_of_not_taker (hl : l.Nodup) {i : ι} (hi : i ∈ l) (h : i ∉ (round cap share l a).takers) :
    cap < a i + share := by
  induction l generalizing a with
  | nil => cases hi
  | cons j rest ih =>
    obtain ⟨hj, hrest⟩ := List.nodup_cons.mp hl
    unfold round at h
    split at h
    · next hover =>
      by_cases hij : i = j
      · rw [hij]
        exact hover
      · have hlater := ih hrest ((List.mem_cons.mp hi).resolve_left hij) h
        rwa [Function.update_of_ne hij] at hlater
    · obtain ⟨hij, h⟩ := not_or.mp fun hm => h (List.mem_cons.mpr hm)
      have hlater := ih hrest ((List.mem_cons.mp hi).resolve_left hij) h
      rwa [Function.update_of_ne hij] at hlater

theorem update_add_gain (given : List (ι × Int)) (a : ι → Int) (i j : ι) (v : Int) :
    Function.update a j v i + gain given i = a i + gain ((j, v - a j) :: given) i := by
  rw [gain_cons]
  by_cases hji : j = i
  · subst hji
    rw [Function.update_self, if_pos rfl]
    omega
  · rw [Function.update_of_ne (Ne.symm hji), if_neg hji, Int.zero_add]

theorem round_gain (i : ι) :
    (round cap share l a).accounts i = a i + gain (round cap share l a).given i := by
  induction l generalizing a with
  | nil => simp [round, gain]
  | cons j rest ih =>
    unfold round
    split
    · simp only [ih, update_add_gain]
    · simp only [ih, update_add_gain, add_sub_cancel_left]

end

/-! ## The rounds -/

/-- What rounding may lose over the rounds, for so many accounts. -/
def loss : Nat → Nat
  | 0 => 0
  | n + 1 => (n - 1) + loss n

theorem loss_mono {m n : Nat} (h : m ≤ n) : loss m ≤ loss n := by
  induction h with
  | refl => exact Nat.le_refl _
  | step _ ih => exact Nat.le_trans ih (Nat.le_add_left ..)

section
variable {cap share : Int} {l s : List ι} {a : ι → Int} {n : Nat}

theorem split_bounds (spill : Int) {k : Nat} (hk : k ≠ 0) :
    spill / k * k ≤ spill ∧ spill ≤ spill / k * k + (k - 1 : Nat) := by
  have hk' : (0 : Int) < k := by omega
  have hle := Int.ediv_mul_le spill (Int.ne_of_gt hk')
  have hlt := Int.lt_ediv_add_one_mul_self spill hk'
  rw [Int.add_mul, Int.one_mul] at hlt
  omega

theorem rounds_of_nonpos (h : share ≤ 0) : rounds cap n share l a = ⟨a, 0, []⟩ := by
  cases n with
  | zero => rfl
  | succ n => exact if_neg (Int.not_lt.mpr h)

theorem rounds_last (hpos : 0 < share) (hnone : (round cap share l a).takers = []) :
    rounds cap (n + 1) share l a =
      ⟨(round cap share l a).accounts, (round cap share l a).spill, (round cap share l a).given⟩ :=
  (if_pos hpos).trans (if_pos hnone)

theorem rounds_again (hpos : 0 < share) (hsome : (round cap share l a).takers ≠ []) :
    rounds cap (n + 1) share l a =
      let r := round cap share l a
      let d := rounds cap n (r.spill / r.takers.length) r.takers r.accounts
      { d with given := r.given ++ d.given } :=
  (if_pos hpos).trans (if_neg hsome)

/-- More rounds than accounts change nothing: they have come to their end. -/
theorem rounds_succ (hn : l.length < n) : rounds cap (n + 1) share l a = rounds cap n share l a := by
  induction n generalizing share l a with
  | zero => omega
  | succ n ih =>
    by_cases hpos : 0 < share
    · by_cases hnone : (round cap share l a).takers = []
      · rw [rounds_last hpos hnone, rounds_last hpos hnone]
      · rw [rounds_again hpos hnone, rounds_again hpos hnone]
        have hnonneg : 0 ≤ (round cap share l a).spill := round_spill_nonneg
        rcases Int.lt_or_eq_of_le hnonneg with hspill | hspill
        · have hlt := round_takers_length hspill
          simp only [ih (Nat.lt_of_lt_of_le hlt (Nat.le_of_lt_succ hn))]
        · simp only [← hspill, Int.zero_ediv, rounds_of_nonpos (Int.le_refl 0)]
    · rw [rounds_of_nonpos (Int.not_lt.mp hpos), rounds_of_nonpos (Int.not_lt.mp hpos)]

/-- What is dealt out is in the accounts, left, or lost in rounding. -/
theorem total_rounds (hn : l.length < n) (hshare : 0 ≤ share) (hs : s.Nodup) (hl : ∀ i ∈ l, i ∈ s) :
    total s (rounds cap n share l a).accounts + (rounds cap n share l a).left ≤
        total s a + share * l.length ∧
      total s a + share * l.length ≤
        total s (rounds cap n share l a).accounts + (rounds cap n share l a).left + loss l.length := by
  induction n generalizing share l a with
  | zero => omega
  | succ n ih =>
    have hround : total s (round cap share l a).accounts + (round cap share l a).spill =
        total s a + share * l.length := total_round hs hl
    have hnonneg : 0 ≤ (round cap share l a).spill := round_spill_nonneg
    rcases Int.lt_or_eq_of_le hshare with hpos | rfl
    · by_cases hnone : (round cap share l a).takers = []
      · rw [rounds_last hpos hnone]
        simp only
        omega
      · rw [rounds_again hpos hnone]
        have hk := fun h0 => hnone (List.length_eq_zero_iff.mp h0)
        rcases Int.lt_or_eq_of_le hnonneg with hspill | hspill
        · have hlt := round_takers_length hspill
          have hsub : ∀ i ∈ (round cap share l a).takers, i ∈ s := fun i hi =>
            hl i (round_takers_sublist.subset hi)
          have hloss := loss_mono (Nat.succ_le_of_lt hlt)
          rw [loss] at hloss
          have hsplit := split_bounds (round cap share l a).spill hk
          have hrest := ih (a := (round cap share l a).accounts) (Nat.lt_of_lt_of_le hlt (Nat.le_of_lt_succ hn))
            (Int.ediv_nonneg hnonneg (Int.natCast_nonneg (round cap share l a).takers.length)) hsub
          simp only
          omega
        · simp only [← hspill, Int.zero_ediv, rounds_of_nonpos (Int.le_refl 0)]
          omega
    · rw [rounds_of_nonpos (Int.le_refl 0)]
      simp only [Int.zero_mul]
      omega

theorem rounds_of_notMem {i : ι} (h : i ∉ l) : (rounds cap n share l a).accounts i = a i := by
  induction n generalizing share l a with
  | zero => rfl
  | succ n ih =>
    by_cases hpos : 0 < share
    · by_cases hnone : (round cap share l a).takers = []
      · rw [rounds_last hpos hnone]
        exact round_of_notMem h
      · rw [rounds_again hpos hnone]
        exact (ih fun hm => h (round_takers_sublist.subset hm)).trans (round_of_notMem h)
    · rw [rounds_of_nonpos (Int.not_lt.mp hpos)]

/-- No account is raised over the cap, and one that takes part in a round is cut. -/
theorem rounds_le (hl : l.Nodup) {i : ι} (h : (0 < n ∧ 0 < share ∧ i ∈ l) ∨ a i ≤ cap) :
    (rounds cap n share l a).accounts i ≤ cap := by
  induction n generalizing share l a with
  | zero => exact h.resolve_left fun hn => Nat.lt_irrefl 0 hn.1
  | succ n ih =>
    by_cases hpos : 0 < share
    · have hround : (round cap share l a).accounts i ≤ cap := by
        by_cases hi : i ∈ l
        · exact (round_accounts hl hi).1
        · rw [round_of_notMem hi]
          exact h.resolve_left fun hn => hi hn.2.2
      by_cases hnone : (round cap share l a).takers = []
      · rw [rounds_last hpos hnone]
        exact hround
      · rw [rounds_again hpos hnone]
        exact ih (hl.sublist round_takers_sublist) (.inr hround)
    · rw [rounds_of_nonpos (Int.not_lt.mp hpos)]
      exact h.resolve_left fun hn => hpos hn.2.1

theorem rounds_ge (hl : l.Nodup) {i : ι} (h : a i ≤ cap) : a i ≤ (rounds cap n share l a).accounts i := by
  induction n generalizing share l a with
  | zero => exact Int.le_refl _
  | succ n ih =>
    by_cases hpos : 0 < share
    · have hround : a i ≤ (round cap share l a).accounts i ∧ (round cap share l a).accounts i ≤ cap := by
        by_cases hi : i ∈ l
        · have hle : (round cap share l a).accounts i ≤ cap := (round_accounts hl hi).1
          by_cases ht : i ∈ (round cap share l a).takers
          · exact ⟨by rw [round_of_taker hl ht]; omega, hle⟩
          · exact ⟨by rw [(round_accounts hl hi).2 ht]; exact h, hle⟩
        · rw [round_of_notMem hi]
          exact ⟨Int.le_refl _, h⟩
      by_cases hnone : (round cap share l a).takers = []
      · rw [rounds_last hpos hnone]
        exact hround.1
      · rw [rounds_again hpos hnone]
        exact Int.le_trans hround.1 (ih (hl.sublist round_takers_sublist) hround.2)
    · have hsame : (rounds cap (n + 1) share l a).accounts i = a i := by
        rw [rounds_of_nonpos (Int.not_lt.mp hpos)]
      exact Int.le_of_eq hsame.symm

/-- Accounts that end below the cap were given the same, and one that was cut off
at the cap no more than that. -/
theorem rounds_fair (hl : l.Nodup) {i j : ι} (hi : i ∈ l) (hj : j ∈ l)
    (hbelow : (rounds cap n share l a).accounts i < cap) :
    ((rounds cap n share l a).accounts j < cap →
        (rounds cap n share l a).accounts j - a j = (rounds cap n share l a).accounts i - a i) ∧
      (a j ≤ cap →
        (rounds cap n share l a).accounts j - a j ≤ (rounds cap n share l a).accounts i - a i) := by
  induction n generalizing share l a with
  | zero =>
    simp only [rounds]
    omega
  | succ n ih =>
    by_cases hpos : 0 < share
    · by_cases hnone : (round cap share l a).takers = []
      · rw [rounds_last hpos hnone] at hbelow
        have hfull : (round cap share l a).accounts i = cap := (round_accounts hl hi).2 (by simp [hnone])
        exact absurd hfull (Int.ne_of_lt hbelow)
      · rw [rounds_again hpos hnone] at hbelow ⊢
        have htakers : (round cap share l a).takers.Nodup := hl.sublist round_takers_sublist
        -- one that is below the cap in the end took its share
        have hti : i ∈ (round cap share l a).takers := by
          by_contra ht
          simp only [rounds_of_notMem ht, (round_accounts hl hi).2 ht] at hbelow
          exact Int.lt_irrefl cap hbelow
        have hshare := round_of_taker hl hti
        have hcap : ∀ {k}, k ∈ l → (round cap share l a).accounts k ≤ cap := fun hk => (round_accounts hl hk).1
        by_cases htj : j ∈ (round cap share l a).takers
        · have hshare' := round_of_taker hl htj
          obtain ⟨hequal, hle⟩ := ih htakers hti htj hbelow
          have hle := hle (hcap hj)
          simp only at hequal ⊢
          refine ⟨fun h => ?_, fun _ => ?_⟩
          · have hequal := hequal h
            omega
          · omega
        · have hover := round_of_not_taker hl hj htj
          have hgrows : (round cap share l a).accounts i ≤
              (rounds cap n ((round cap share l a).spill / (round cap share l a).takers.length)
                (round cap share l a).takers (round cap share l a).accounts).accounts i := rounds_ge htakers (hcap hi)
          simp only [rounds_of_notMem htj, (round_accounts hl hj).2 htj]
          omega
    · rw [rounds_of_nonpos (Int.not_lt.mp hpos)]
      simp only
      omega

/-- What nobody takes is left over only when every account is at the cap. -/
theorem rounds_left (hl : l.Nodup) (h : (rounds cap n share l a).left ≠ 0) {i : ι} (hi : i ∈ l) :
    (rounds cap n share l a).accounts i = cap := by
  induction n generalizing share l a with
  | zero => exact absurd rfl h
  | succ n ih =>
    by_cases hpos : 0 < share
    · by_cases hnone : (round cap share l a).takers = []
      · rw [rounds_last hpos hnone]
        exact (round_accounts hl hi).2 (by simp [hnone])
      · rw [rounds_again hpos hnone] at h ⊢
        by_cases ht : i ∈ (round cap share l a).takers
        · exact ih (hl.sublist round_takers_sublist) h ht
        · exact (rounds_of_notMem ht).trans ((round_accounts hl hi).2 ht)
    · rw [rounds_of_nonpos (Int.not_lt.mp hpos)] at h
      exact absurd rfl h

theorem rounds_gain (i : ι) :
    (rounds cap n share l a).accounts i = a i + gain (rounds cap n share l a).given i := by
  induction n generalizing share l a with
  | zero => exact (Int.add_zero _).symm
  | succ n ih =>
    have hround : (round cap share l a).accounts i = a i + gain (round cap share l a).given i := round_gain i
    by_cases hpos : 0 < share
    · by_cases hnone : (round cap share l a).takers = []
      · rw [rounds_last hpos hnone]
        exact hround
      · rw [rounds_again hpos hnone]
        simp only [gain_append, ih, hround]
        omega
    · rw [rounds_of_nonpos (Int.not_lt.mp hpos)]
      exact (Int.add_zero _).symm

end

end Deal

end Lib
