import Mathlib.Data.BitVec
import Mathlib.Order.Interval.Finset.Nat
import Mathlib.Tactic.Common

/-!
# Sync.Counter — registers that count since an event

`since clear inc t` is the number of cycles before `t` with `inc` and without `clear` since.  A register that `clear`
sets to zero and that counts `inc` otherwise holds this number modulo `2 ^ w` (`counter_mod`), and the number itself as
long as there are not too many (`counter_eq`).
-/

namespace Sync

open Finset

variable {clear inc : ℕ → Prop} [DecidablePred clear] [DecidablePred inc] {t : ℕ}

/-- The number of cycles before `t` with `inc` since the last one with `clear`. -/
def since (clear inc : ℕ → Prop) [DecidablePred clear] [DecidablePred inc] (t : ℕ) : ℕ :=
  #{u ∈ range t | inc u ∧ ∀ z ∈ Ico u t, ¬ clear z}

theorem since_zero : since clear inc 0 = 0 := rfl

theorem since_succ_of_clear (h : clear t) : since clear inc (t + 1) = 0 := by
  unfold since
  rw [card_eq_zero, filter_eq_empty_iff]
  rintro u hu ⟨-, hno⟩
  exact hno t (mem_Ico.mpr ⟨Nat.lt_succ_iff.mp (mem_range.mp hu), Nat.lt_succ_self t⟩) h

theorem since_succ_of_not_clear (h : ¬ clear t) :
    since clear inc (t + 1) = since clear inc t + if inc t then 1 else 0 := by
  -- an earlier cycle counts as before
  have hold : ∀ u ∈ range t, (inc u ∧ ∀ z ∈ Ico u (t + 1), ¬ clear z) ↔ inc u ∧ ∀ z ∈ Ico u t, ¬ clear z := by
    intro u hu
    refine and_congr_right fun _ => ⟨fun hno z hz => ?_, fun hno z hz => ?_⟩
    · exact hno z (Ico_subset_Ico_right (Nat.le_succ t) hz)
    · rw [mem_Ico] at hz
      rcases Nat.lt_succ_iff_lt_or_eq.mp hz.2 with hlt | rfl
      · exact hno z (mem_Ico.mpr ⟨hz.1, hlt⟩)
      · exact h
  have hnew : (inc t ∧ ∀ z ∈ Ico t (t + 1), ¬ clear z) ↔ inc t := by
    refine and_iff_left ?_
    intro z hz
    rw [Nat.Ico_succ_singleton, mem_singleton] at hz
    rwa [hz]
  unfold since
  rw [range_add_one, filter_insert, filter_congr hold]
  split_ifs with hc hi hi
  · rw [card_insert_of_notMem (by simp)]
  · exact absurd (hnew.mp hc) hi
  · exact absurd (hnew.mpr hi) hc
  · rfl

theorem since_succ_le : since clear inc (t + 1) ≤ since clear inc t + 1 := by
  by_cases h : clear t
  · rw [since_succ_of_clear h]
    exact Nat.zero_le _
  · rw [since_succ_of_not_clear h]
    split_ifs <;> omega

/-- A cycle without `inc` adds nothing. -/
theorem since_succ_le_of_not_inc (hi : ¬ inc t) : since clear inc (t + 1) ≤ since clear inc t := by
  by_cases h : clear t
  · rw [since_succ_of_clear h]
    exact Nat.zero_le _
  · rw [since_succ_of_not_clear h, if_neg hi, Nat.add_zero]

/-- Cycles with neither event change nothing. -/
theorem since_eq_of_quiet {x y : ℕ} (hxy : x ≤ y) (h : ∀ z, x ≤ z → z < y → ¬ clear z ∧ ¬ inc z) :
    since clear inc y = since clear inc x := by
  induction y, hxy using Nat.le_induction with
  | base => rfl
  | succ y hxy ih =>
    obtain ⟨hc, hi⟩ := h y hxy (Nat.lt_succ_self y)
    rw [since_succ_of_not_clear hc, if_neg hi, Nat.add_zero]
    exact ih fun z h1 h2 => h z h1 (by omega)

section Register

variable {w : ℕ} (cnt : ℕ → BitVec w)

/-- A counter holds the number of increments modulo `2 ^ w`. -/
theorem counter_mod (h0 : cnt 0 = 0) (hclear : ∀ t, clear t → cnt (t + 1) = 0)
    (hcount : ∀ t, ¬ clear t → cnt (t + 1) = cnt t + if inc t then 1 else 0) (t : ℕ) :
    (cnt t).toNat = since clear inc t % 2 ^ w := by
  induction t with
  | zero =>
    rw [h0, since_zero]
    simp
  | succ t ih =>
    by_cases h : clear t
    · rw [hclear t h, since_succ_of_clear h]
      simp
    · rw [hcount t h, since_succ_of_not_clear h, BitVec.toNat_add, ih]
      split_ifs <;> simp

/-- A counter that cannot reach `2 ^ w` increments is exact. -/
theorem counter_eq (h0 : cnt 0 = 0) (hclear : ∀ t, clear t → cnt (t + 1) = 0)
    (hcount : ∀ t, ¬ clear t → cnt (t + 1) = cnt t + if inc t then 1 else 0) (hlt : since clear inc t < 2 ^ w) :
    (cnt t).toNat = since clear inc t := by
  rw [counter_mod cnt h0 hclear hcount, Nat.mod_eq_of_lt hlt]

end Register

end Sync
