import Mathlib.Data.List.Perm.Basic
import Mathlib.Data.List.Nodup
import Mathlib.Tactic.Common

/-!
# Resource.Pool — a pool that lends out its resources one at a time

`all` lists the resources.  A pool starts empty, is filled once, lends out one of its resources and takes it back
(`Move`).  `Sound`: at any time it is still empty, or each resource is either free or lent out, and no resource twice.
Nothing here is about a particular kind of resource.

Rules: `Sound.move`, `Sound.not_mem` (the resource lent out is not free), `Sound.count_free` (with none lent out each
resource is free exactly once).
-/

namespace Resource

variable {α : Type*}

/-- The free resources and the one lent out. -/
structure Pool (α : Type*) where
  free : List α
  held : Option α

namespace Pool

/-- The resources that are accounted for. -/
def owned (p : Pool α) : List α := p.held.toList ++ p.free

section Moves

variable [DecidableEq α] (all : List α)

/-- What can happen to a pool. -/
inductive Move : Pool α → Pool α → Prop
  | stay (p : Pool α) : Move p p
  | fill : Move ⟨[], none⟩ ⟨all, none⟩
  | take (free : List α) (a : α) (h : a ∈ free) : Move ⟨free, none⟩ ⟨free.erase a, some a⟩
  | give (free : List α) (a : α) : Move ⟨free, some a⟩ ⟨free ++ [a], none⟩

/-- Each resource is accounted for, or none is yet. -/
def Sound (p : Pool α) : Prop := p = ⟨[], none⟩ ∨ p.owned.Perm all

end Moves

variable {all free : List α} {a : α} {p q : Pool α}

theorem Sound.move [DecidableEq α] (hp : Sound all p) (h : Move all p q) : Sound all q := by
  cases h with
  | stay => exact hp
  | fill => exact Or.inr (List.Perm.refl all)
  | take free a ha =>
    rcases hp with hp | hp
    · cases hp
      cases ha
    · exact Or.inr ((List.perm_cons_erase ha).symm.trans hp)
  | give free a =>
    rcases hp with hp | hp
    · cases hp
    · exact Or.inr ((List.perm_append_singleton a free).trans hp)

/-- A pool from which a resource is lent out has been filled. -/
theorem Sound.perm (hp : Sound all ⟨free, some a⟩) : (a :: free).Perm all := by
  rcases hp with hp | hp
  · cases hp
  · exact hp

theorem Sound.not_mem (hall : all.Nodup) (hp : Sound all ⟨free, some a⟩) : a ∉ free :=
  (List.nodup_cons.mp (hp.perm.nodup_iff.mpr hall)).1

/-- After the return each resource is free exactly once. -/
theorem Sound.count_free [DecidableEq α] (hall : all.Nodup) (hp : Sound all ⟨free, some a⟩) {b : α} (hb : b ∈ all) :
    (free ++ [a]).count b = 1 := by
  have hperm : (free ++ [a]).Perm all := (List.perm_append_singleton a free).trans hp.perm
  rw [hperm.count_eq b]
  exact List.count_eq_one_of_mem hall hb

end Pool

end Resource
