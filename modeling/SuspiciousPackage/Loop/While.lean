import Mathlib.Tactic.Common

/-!
# Loop.While — `while` loops that come to an end

A loop is its test, its body and a number that each pass brings down.  A pass that waits for something which never
comes is `none`, and so is then the loop.  Nothing here is about a particular program.

Rules: `run_of_false`, `run_of_true` (one pass), `run_total` (an invariant under which no pass blocks holds at the
exit), `run_counted` (an invariant indexed by the number of passes made, for exactly `K` passes).
-/

namespace Loop

/-- A `while` loop. -/
structure While (σ : Type*) where
  test : σ → Bool
  body : σ → Option σ
  variant : σ → ℕ
  /-- A pass brings the variant down. -/
  down : ∀ s s', test s = true → body s = some s' → variant s' < variant s

namespace While

variable {σ : Type*} (l : While σ)

/-- The state in which the loop started in `s` is left. -/
def run (s : σ) : Option σ :=
  if _ : l.test s = true then
    match _ : l.body s with
    | none => none
    | some s' => run s'
  else some s
termination_by l.variant s
decreasing_by exact l.down s s' ‹_› ‹_›

variable {l}

theorem run_of_false {s : σ} (h : l.test s = false) : l.run s = some s := by
  unfold run
  rw [dif_neg (by rw [h]; exact Bool.false_ne_true)]

theorem run_of_true {s s' : σ} (h : l.test s = true) (hb : l.body s = some s') : l.run s = l.run s' := by
  rw [run, dif_pos h]
  split
  · next hn => rw [hn] at hb; cases hb
  · next hs => rw [hb] at hs; cases hs; rfl

/-- **Total correctness**: an invariant that each pass keeps, and under which no pass blocks. -/
theorem run_total {I : σ → Prop} (hpass : ∀ s, l.test s = true → I s → ∃ s', l.body s = some s' ∧ I s') (s : σ)
    (hs : I s) : ∃ s', l.run s = some s' ∧ I s' ∧ l.test s' = false := by
  induction hn : l.variant s using Nat.strongRecOn generalizing s with
  | _ n ih =>
    cases ht : l.test s with
    | false => exact ⟨s, run_of_false ht, hs, ht⟩
    | true =>
      obtain ⟨s₁, hb, hs₁⟩ := hpass s ht hs
      have hlt : l.variant s₁ < n := hn ▸ l.down s s₁ ht hb
      rw [run_of_true ht hb]
      exact ih _ hlt s₁ hs₁ rfl

/-- **Counted loop**: an invariant indexed by the number of passes made, exactly `K` of them. -/
theorem run_counted {I : ℕ → σ → Prop} {K : ℕ}
    (hpass : ∀ k < K, ∀ s, I k s → l.test s = true ∧ ∃ s', l.body s = some s' ∧ I (k + 1) s')
    (hexit : ∀ s, I K s → l.test s = false) (s : σ) (hs : I 0 s) : ∃ s', l.run s = some s' ∧ I K s' := by
  have hinv : ∀ s, l.test s = true → (∃ k ≤ K, I k s) → ∃ s', l.body s = some s' ∧ ∃ k ≤ K, I k s' := by
    rintro s ht ⟨k, hk, hI⟩
    have hne : k ≠ K := by
      rintro rfl
      rw [hexit s hI] at ht
      cases ht
    obtain ⟨-, s', hb, hI'⟩ := hpass k (by omega) s hI
    exact ⟨s', hb, k + 1, by omega, hI'⟩
  obtain ⟨s', hrun, ⟨k, hk, hI⟩, ht⟩ := run_total hinv s ⟨0, Nat.zero_le K, hs⟩
  obtain rfl | hlt : k = K ∨ k < K := by omega
  · exact ⟨s', hrun, hI⟩
  · rw [(hpass k hlt s' hI).1] at ht
    cases ht

end While

end Loop
