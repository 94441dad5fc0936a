import Mathlib.Data.List.Nodup
import Mathlib.Data.List.Perm.Basic
import Mathlib.Logic.Function.Basic
import Mathlib.Tactic.Common

/-!
# Resource.Lists — blocks of memory kept on lists

A heap of blocks, some of them in use, and lists of blocks.  `home` says on which list a block belongs by what it holds,
`loose` what a block on no list may hold.  `Sound`: no list has a block twice, each block on a list is in use and belongs
there, and a block in use that is on no list is loose.  One rule, `Sound.put`, covers every operation that rewrites one
block and takes it from one list to another, to none, or out of use.  Nothing here is about a particular kind of block.
-/

namespace Resource

variable {β ι σ : Type*}

/-- The blocks in use with what they hold, and the lists. -/
structure Lists (β ι σ : Type*) where
  heap : β → Option σ
  list : ι → List β

namespace Lists

section Sound

variable (home : σ → ι) (loose : σ → Prop)

structure Sound (s : Lists β ι σ) : Prop where
  nodup : ∀ k, (s.list k).Nodup
  listed : ∀ k, ∀ b ∈ s.list k, ∃ x, s.heap b = some x ∧ home x = k
  unlisted : ∀ b x, s.heap b = some x → b ∉ s.list (home x) → loose x

end Sound

variable {home : σ → ι} {loose : σ → Prop} {s s' : Lists β ι σ} {b : β} {x : σ} {k : ι}

theorem Sound.home_eq (h : Sound home loose s) (hb : b ∈ s.list k) (hx : s.heap b = some x) : home x = k := by
  obtain ⟨y, hy, hk⟩ := h.listed k b hb
  obtain rfl : y = x := Option.some.inj (hy.symm.trans hx)
  exact hk

/-- A block is on no list but its own. -/
theorem Sound.not_mem (h : Sound home loose s) (hx : s.heap b = some x) (hk : home x ≠ k) : b ∉ s.list k :=
  fun hb => hk (h.home_eq hb hx)

theorem Sound.not_mem_of_free (h : Sound home loose s) (hx : s.heap b = none) (k : ι) : b ∉ s.list k := by
  intro hb
  obtain ⟨y, hy, -⟩ := h.listed k b hb
  rw [hx] at hy
  cases hy

section Put

variable [DecidableEq β]

/-- Block `b` now holds `o` and is on the list `place`, if any, and on no other one; the rest is as it was, up to the order
of the lists. -/
structure Put (b : β) (o : Option σ) (place : Option ι) (s s' : Lists β ι σ) : Prop where
  heap : s'.heap = Function.update s.heap b o
  list : ∀ k c, c ∈ s'.list k ↔ (c = b ∧ place = some k) ∨ (c ≠ b ∧ c ∈ s.list k)
  nodup : ∀ k, (s'.list k).Nodup

theorem Sound.put {o : Option σ} {place : Option ι} (h : Sound home loose s) (hp : Put b o place s s')
    (hplace : ∀ k, place = some k → ∃ x, o = some x ∧ home x = k)
    (hloose : place = none → ∀ x, o = some x → loose x) : Sound home loose s' where
  nodup := hp.nodup
  listed := by
    intro k c hc
    rcases (hp.list k c).mp hc with ⟨rfl, hk⟩ | ⟨hne, hc⟩
    · obtain ⟨x, hx, hhome⟩ := hplace k hk
      exact ⟨x, by rw [hp.heap, Function.update_self, hx], hhome⟩
    · rw [hp.heap, Function.update_of_ne hne]
      exact h.listed k c hc
  unlisted := by
    intro c x hx hc
    rw [hp.heap] at hx
    by_cases hcb : c = b
    · subst hcb
      rw [Function.update_self] at hx
      cases hpl : place with
      | none => exact hloose hpl x hx
      | some k =>
        obtain ⟨y, hy, hk⟩ := hplace k hpl
        obtain rfl : y = x := Option.some.inj (hy.symm.trans hx)
        exact absurd ((hp.list _ c).mpr (Or.inl ⟨rfl, by rw [hpl, hk]⟩)) hc
    · rw [Function.update_of_ne hcb] at hx
      exact h.unlisted c x hx fun hmem => hc ((hp.list _ c).mpr (Or.inr ⟨hcb, hmem⟩))

/-! How a block comes to be where it is, when it is on no list but `k`. -/

variable {o : Option σ} {l : List β} {j : ι}

/-- The block is rewritten where it is. -/
theorem Sound.put_write (h : Sound home loose s) (hk : ∀ j, j ≠ k → b ∉ s.list j) (hb : b ∈ s.list k) :
    Put b o (some k) s ⟨Function.update s.heap b o, s.list⟩ where
  heap := rfl
  nodup := h.nodup
  list := by
    intro j c
    by_cases hcb : c = b
    · subst hcb
      have hj : c ∈ s.list j ↔ some k = some j :=
        ⟨fun hc => congrArg some (by_contra fun hne => hk j (Ne.symm hne) hc), fun hj => Option.some.inj hj ▸ hb⟩
      simp [hj]
    · simp [hcb]

theorem Sound.put_write_off (h : Sound home loose s) (hk : ∀ j, b ∉ s.list j) :
    Put b o none s ⟨Function.update s.heap b o, s.list⟩ where
  heap := rfl
  nodup := h.nodup
  list := by
    intro j c
    by_cases hcb : c = b
    · subst hcb
      simp [hk j]
    · simp [hcb]

variable [DecidableEq ι]

/-- List `k` is changed. -/
theorem Sound.put_update {place : Option ι} (h : Sound home loose s) (hk : ∀ j, j ≠ k → b ∉ s.list j)
    (hplace : ∀ j, place = some j → j = k) (hnodup : l.Nodup)
    (hmem : ∀ c, c ∈ l ↔ (c = b ∧ place = some k) ∨ (c ≠ b ∧ c ∈ s.list k)) :
    Put b o place s ⟨Function.update s.heap b o, Function.update s.list k l⟩ where
  heap := rfl
  nodup := by
    intro j
    show (Function.update s.list k l j).Nodup
    by_cases hj : j = k
    · rw [hj, Function.update_self]
      exact hnodup
    · rw [Function.update_of_ne hj]
      exact h.nodup j
  list := by
    intro j c
    show c ∈ Function.update s.list k l j ↔ _
    by_cases hj : j = k
    · rw [hj, Function.update_self]
      exact hmem c
    · rw [Function.update_of_ne hj]
      have hno : place ≠ some j := fun hp => hj (hplace j hp)
      by_cases hcb : c = b
      · subst hcb
        simp [hk j hj, hno]
      · simp [hcb]

/-- The block is taken from list `k`. -/
theorem Sound.put_take (h : Sound home loose s) (hk : ∀ j, j ≠ k → b ∉ s.list j) (hl : l.Perm ((s.list k).erase b)) :
    Put b o none s ⟨Function.update s.heap b o, Function.update s.list k l⟩ := by
  refine h.put_update hk (fun j hj => by cases hj) (hl.nodup_iff.mpr ((h.nodup k).erase b)) fun c => ?_
  rw [hl.mem_iff, (h.nodup k).mem_erase_iff]
  simp

/-- The block is put on list `k`. -/
theorem Sound.put_reg (h : Sound home loose s) (hk : ∀ j, b ∉ s.list j) (hl : l.Perm (b :: s.list k)) :
    Put b o (some k) s ⟨Function.update s.heap b o, Function.update s.list k l⟩ := by
  refine h.put_update (fun j _ => hk j) (fun j hj => (Option.some.inj hj).symm)
    (hl.nodup_iff.mpr (List.nodup_cons.mpr ⟨hk k, h.nodup k⟩)) fun c => ?_
  rw [hl.mem_iff, List.mem_cons]
  by_cases hcb : c = b
  · simp [hcb]
  · simp [hcb]

end Put

end Lists

end Resource
