import SuspiciousPackage.Sync.Run

/-!
# Sync.Slot — a response register with a valid flag

A slot is loaded by a request, offers its datum while `valid` is high and is emptied in the cycle in which `ready` is
high as well: the response side of a handshake protocol that never has more than one response pending.  `Slot.answered`
numbers the two sides against each other: the `k`-th response beat answers the `k`-th request.
-/

namespace Sync

variable {α : Type*}

/-- A response beat: offered and taken. -/
def Handshake (valid ready : ℕ → Bool) (t : ℕ) : Prop := valid t = true ∧ ready t = true

instance (valid ready : ℕ → Bool) : DecidablePred (Handshake valid ready) :=
  fun _ => inferInstanceAs (Decidable (_ ∧ _))

section Slot

variable (req : ℕ → Prop) [DecidablePred req] (valid ready : ℕ → Bool) (data y : ℕ → α)

/-- How a slot behaves: a request in cycle `t` finds it empty and loads `y t`. -/
structure Slot : Prop where
  zero : valid 0 = false
  empty : ∀ t, req t → valid t = false
  load : ∀ t, req t → valid (t + 1) = true ∧ data (t + 1) = y t
  keep : ∀ t, ¬ req t → valid (t + 1) = (valid t && !ready t) ∧ data (t + 1) = data t

/-- Each request is answered by exactly one beat: the `k`-th request, in cycle `q`, by the `k`-th beat, which is offered
with the datum `y q` from the next cycle on until it is taken; and there are no other beats. -/
structure Answered : Prop where
  offered : ∀ k q, Kth req k q → ∀ p, q < p → (∀ u, q < u → u < p → ready u = false) →
    valid p = true ∧ data p = y q ∧ Nat.count (Handshake valid ready) p = k
  asked : ∀ k p, Kth (Handshake valid ready) k p →
    ∃ q < p, Kth req k q ∧ (∀ u, q < u → u < p → ready u = false) ∧ data p = y q

end Slot

variable {req : ℕ → Prop} [DecidablePred req] {valid ready : ℕ → Bool} {data y : ℕ → α}

/-- In every cycle the slot is empty and each request answered, or it holds the response to the last request. -/
theorem Slot.pending (h : Slot req valid ready data y) (t : ℕ) :
    (valid t = false ∧ Nat.count req t = Nat.count (Handshake valid ready) t) ∨
    (valid t = true ∧ ∃ q < t, Kth req (Nat.count (Handshake valid ready) t) q ∧
      Nat.count req t = Nat.count (Handshake valid ready) t + 1 ∧ (∀ u, q < u → u < t → ready u = false) ∧
      data t = y q) := by
  induction t with
  | zero => exact Or.inl ⟨h.zero, rfl⟩
  | succ t ih =>
    by_cases hr : req t
    · -- a request finds the slot empty
      have hv := h.empty t hr
      have hno : ¬ Handshake valid ready t := fun ht => absurd (hv.symm.trans ht.1) (by simp)
      have hcount : Nat.count req t = Nat.count (Handshake valid ready) t := by
        rcases ih with ⟨-, hc⟩ | ⟨hv', -⟩
        · exact hc
        · exact absurd (hv.symm.trans hv') (by simp)
      obtain ⟨h1, h2⟩ := h.load t hr
      rw [Nat.count_succ_eq_succ_count_iff.mpr hr, Nat.count_succ_eq_count_iff.mpr hno]
      refine Or.inr ⟨h1, t, Nat.lt_succ_self t, ⟨hr, hcount⟩, by rw [hcount], ?_, h2⟩
      intro u h3 h4
      omega
    · obtain ⟨h1, h2⟩ := h.keep t hr
      rw [Nat.count_succ_eq_count_iff.mpr hr]
      rcases ih with ⟨hv, hc⟩ | ⟨hv, q, hq, hk, hc, hlow, hd⟩
      · have hno : ¬ Handshake valid ready t := fun ht => absurd (hv.symm.trans ht.1) (by simp)
        rw [Nat.count_succ_eq_count_iff.mpr hno, h1, hv]
        exact Or.inl ⟨rfl, hc⟩
      · cases hrd : ready t
        · have hno : ¬ Handshake valid ready t := fun ht => absurd (hrd.symm.trans ht.2) (by simp)
          rw [Nat.count_succ_eq_count_iff.mpr hno, h1, h2, hv, hrd]
          refine Or.inr ⟨rfl, q, by omega, hk, hc, ?_, hd⟩
          intro u h3 h4
          rcases Nat.lt_succ_iff_lt_or_eq.mp h4 with h5 | rfl
          · exact hlow u h3 h5
          · exact hrd
        · have ht : Handshake valid ready t := ⟨hv, hrd⟩
          rw [Nat.count_succ_eq_succ_count_iff.mpr ht, h1, hv, hrd]
          exact Or.inl ⟨rfl, hc⟩

/-- From its request on the response is offered until it is taken. -/
theorem Slot.held (h : Slot req valid ready data y) {k q p : ℕ} (hk : Kth req k q) (hqp : q < p)
    (hlow : ∀ u, q < u → u < p → ready u = false) :
    valid p = true ∧ data p = y q ∧ Nat.count (Handshake valid ready) p = k := by
  induction p, hqp using Nat.le_induction with
  | base =>
    obtain ⟨h1, h2⟩ := h.load q hk.1
    refine ⟨h1, h2, ?_⟩
    have hv := h.empty q hk.1
    have hno : ¬ Handshake valid ready q := fun ht => absurd (hv.symm.trans ht.1) (by simp)
    rw [Nat.count_succ_eq_count_iff.mpr hno]
    rcases h.pending q with ⟨-, hc⟩ | ⟨hv', -⟩
    · exact hc.symm.trans hk.2
    · exact absurd (hv.symm.trans hv') (by simp)
  | succ p hqp ih =>
    obtain ⟨h1, h2, h3⟩ := ih fun u h4 h5 => hlow u h4 (by omega)
    have hrd := hlow p hqp (Nat.lt_succ_self p)
    have hr : ¬ req p := fun hr => absurd ((h.empty p hr).symm.trans h1) (by simp)
    have hno : ¬ Handshake valid ready p := fun ht => absurd (hrd.symm.trans ht.2) (by simp)
    obtain ⟨h4, h5⟩ := h.keep p hr
    rw [h4, h5, h1, hrd, Nat.count_succ_eq_count_iff.mpr hno]
    exact ⟨rfl, h2, h3⟩

/-- **The `k`-th beat answers the `k`-th request.** -/
theorem Slot.answered (h : Slot req valid ready data y) : Answered req valid ready data y where
  offered k q hk p hqp hlow := h.held hk hqp hlow
  asked k p hp := by
    rcases h.pending p with ⟨hv, -⟩ | ⟨-, q, hq, hk, -, hlow, hd⟩
    · exact absurd (hv.symm.trans hp.1.1) (by simp)
    · rw [hp.2] at hk
      exact ⟨q, hq, hk, hlow, hd⟩

end Sync
