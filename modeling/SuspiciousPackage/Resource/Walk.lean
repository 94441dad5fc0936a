import Mathlib.Data.List.Induction
import SuspiciousPackage.Resource.Lists

/-!
# Resource.Walk — blocks removed on the way along a list

A loop goes along a singly linked list and drops some of the blocks.  To unlink one it needs the block before, and takes
the last one it has kept for it: a block that it skips is left on the list, but not remembered (`visit`).  `walk_eq`: the
list is then what the loop has left of it, as long as no block that is skipped stands right before one that is dropped;
`walk_skipped` is what happens otherwise at its head.  Nothing here is about a particular kind of block.
-/

namespace Resource

variable {β ι σ : Type*}

/-- What the loop makes of a block: it may be an error to find it there. -/
inductive Outcome (σ : Type*)
  | fails
  | skips
  | drops
  | keeps (x : σ)

/-- What the block holds then. -/
def Outcome.after : Outcome σ → σ → Option σ
  | .drops, _ => none
  | .keeps y, _ => some y
  | _, x => some x

namespace Lists

section Look

variable (look : β → σ → Outcome σ)

/-- The loop drops block `b`. -/
def dropped (s : Lists β ι σ) (b : β) : Bool :=
  (s.heap b).any fun x => match look b x with
    | .drops => true
    | _ => false

/-- It skips it. -/
def skipped (s : Lists β ι σ) (b : β) : Bool :=
  (s.heap b).any fun x => match look b x with
    | .skips => true
    | _ => false

/-- The last block kept. -/
def lastKept (l : List β) (s : Lists β ι σ) : Option β :=
  (l.filter fun b => !s.dropped look b && !s.skipped look b).getLast?

variable {look} {s : Lists β ι σ} {b : β} {x : σ}

theorem dropped_iff : s.dropped look b = true ↔ ∃ x, s.heap b = some x ∧ look b x = .drops := by
  unfold dropped
  rw [Option.any_eq_true]
  refine exists_congr fun x => and_congr_right fun _ => ?_
  cases look b x <;> simp

theorem skipped_iff : s.skipped look b = true ↔ ∃ x, s.heap b = some x ∧ look b x = .skips := by
  unfold skipped
  rw [Option.any_eq_true]
  refine exists_congr fun x => and_congr_right fun _ => ?_
  cases look b x <;> simp

theorem dropped_of_heap (hb : s.heap b = some x) : s.dropped look b = true ↔ look b x = .drops := by
  rw [dropped_iff, hb]
  simp

theorem skipped_of_heap (hb : s.heap b = some x) : s.skipped look b = true ↔ look b x = .skips := by
  rw [skipped_iff, hb]
  simp

end Look

/-! ## The loop -/

section Defs

variable [DecidableEq β] [DecidableEq ι]

/-- Block `b` is unlinked behind `prev`; without a block before it has to be the first one, else it may not be. -/
def splice (prev : Option β) (b : β) (l : List β) : Option (List β) :=
  match prev with
  | some c =>
    if l.head? = some b then none else some (l.takeWhile (· ≠ c) ++ c :: (l.dropWhile (· ≠ b)).tail)
  | none => if l.head? = some b then some l.tail else none

variable (k : ι) (look : β → σ → Outcome σ)

/-- One pass of the loop, with the block before in hand. -/
def visit (r : Lists β ι σ × Option β) (b : β) : Option (Lists β ι σ × Option β) :=
  (r.1.heap b).bind fun x =>
    match look b x with
    | .fails => none
    | .skips => some r
    | .drops =>
      (splice r.2 b (r.1.list k)).map fun l => (⟨Function.update r.1.heap b none, Function.update r.1.list k l⟩, r.2)
    | .keeps y => some (⟨Function.update r.1.heap b (some y), r.1.list⟩, some b)

/-- The loop along list `k`. -/
def walk (s : Lists β ι σ) : Option (Lists β ι σ) := ((s.list k).foldlM (visit k look) (s, none)).map Prod.fst

/-- What the loop leaves behind once it has been at the blocks `l`. -/
def walked (l rest : List β) (s : Lists β ι σ) : Lists β ι σ where
  heap b := if b ∈ l then (s.heap b).bind fun x => (look b x).after x else s.heap b
  list := Function.update s.list k ((l.filter fun b => !s.dropped look b) ++ rest)

end Defs

/-! ### Unlinking -/

section Splice

variable [DecidableEq β] {b c : β} {l rest : List β}

theorem splice_first (b : β) (l : List β) : splice none b (b :: l) = some l := by
  simp [splice]

theorem splice_behind (hnodup : (l ++ c :: b :: rest).Nodup) :
    splice (some c) b (l ++ c :: b :: rest) = some (l ++ c :: rest) := by
  have hc : ∀ a ∈ l, a ≠ c := fun a ha => (List.nodup_append.mp hnodup).2.2 a ha c List.mem_cons_self
  have hb : ∀ a ∈ l ++ [c], a ≠ b := by
    rw [List.append_cons] at hnodup
    exact fun a ha => (List.nodup_append.mp hnodup).2.2 a ha b List.mem_cons_self
  have hhead : (l ++ c :: b :: rest).head? ≠ some b := by
    cases l with
    | nil => simpa using hb c (by simp)
    | cons a l => simpa using hb a (by simp)
  have htake : (l ++ c :: b :: rest).takeWhile (· ≠ c) = l := by
    rw [List.takeWhile_append_of_pos fun a ha => by simpa using hc a ha]
    simp
  have hdrop : (l ++ c :: b :: rest).dropWhile (· ≠ b) = b :: rest := by
    rw [List.append_cons, List.dropWhile_append_of_pos fun a ha => by simpa using hb a ha]
    simp
  show (if _ then none else some _) = _
  rw [if_neg hhead, htake, hdrop]
  rfl

end Splice

section Walk

variable {k : ι} {look : β → σ → Outcome σ} {s : Lists β ι σ} {b : β} {x : σ} {l rest : List β}

/-- The last block kept is the last one left, when the next one is dropped. -/
theorem getLast?_left (hpairs : ∀ c d, [c, d] <:+: l ++ [b] → s.skipped look c = true → s.dropped look d = false)
    (hb : s.dropped look b = true) : (l.filter fun b => !s.dropped look b).getLast? = s.lastKept look l := by
  unfold lastKept
  induction l using List.reverseRecOn generalizing b with
  | nil => rfl
  | append_singleton l c ih =>
    have hskip : s.skipped look c = false := by
      by_contra hs
      have hd := hpairs c b ⟨l, [], by simp⟩ ((Bool.not_eq_false _).mp hs)
      rw [hd] at hb
      cases hb
    rw [List.filter_append, List.filter_append]
    cases hc : s.dropped look c
    · simp [hc, hskip]
    · have hl := ih (b := c) (fun a d had => hpairs a d (had.trans ⟨[], [b], by simp⟩)) hc
      simpa [hc] using hl

theorem filter_concat (p : β → Bool) (l : List β) (b : β) :
    (l ++ [b]).filter p = l.filter p ++ if p b then [b] else [] := by
  rw [List.filter_append]
  cases h : p b <;> simp [h]

variable [DecidableEq β]

theorem heap_concat (hb : s.heap b = some x) (hno : b ∉ l) :
    (fun c => if c ∈ l ++ [b] then (s.heap c).bind fun x => (look c x).after x else s.heap c) =
      Function.update (fun c => if c ∈ l then (s.heap c).bind fun x => (look c x).after x else s.heap c) b
        ((look b x).after x) := by
  funext c
  by_cases hc : c = b
  · subst hc
    rw [Function.update_self, if_pos (by simp), hb, Option.bind_some]
  · rw [Function.update_of_ne hc]
    simp [hc]

variable [DecidableEq ι]

/-! ### Along the list -/

variable (hnodup : (s.list k).Nodup) (hlisted : ∀ b ∈ s.list k, ∃ x, s.heap b = some x ∧ look b x ≠ .fails)
  (hpairs : ∀ c d, [c, d] <:+: s.list k → s.skipped look c = true → s.dropped look d = false)

include hnodup hlisted hpairs

/-- **One pass.** -/
theorem visit_eq (heq : s.list k = l ++ b :: rest) :
    visit k look (s.walked k look l (b :: rest), s.lastKept look l) b =
      some (s.walked k look (l ++ [b]) rest, s.lastKept look (l ++ [b])) := by
  have hno : b ∉ l := by
    rw [heq] at hnodup
    intro hb
    exact (List.nodup_append.mp hnodup).2.2 b hb b List.mem_cons_self rfl
  obtain ⟨x, hx, hfails⟩ := hlisted b (by rw [heq]; simp)
  have hheap : (s.walked k look l (b :: rest)).heap b = some x := (if_neg hno).trans hx
  have hlist : (s.walked k look l (b :: rest)).list k = (l.filter fun b => !s.dropped look b) ++ b :: rest :=
    Function.update_self ..
  have hstay : ∀ o, (look b x).after x = o → s.dropped look b = false →
      (⟨Function.update (s.walked k look l (b :: rest)).heap b o, (s.walked k look l (b :: rest)).list⟩ : Lists β ι σ) =
        s.walked k look (l ++ [b]) rest := by
    rintro o rfl hd
    unfold walked
    rw [heap_concat hx hno, filter_concat, hd]
    simp
  unfold visit
  dsimp only
  rw [hheap, Option.bind_some]
  cases hlook : look b x with
  | fails => exact absurd hlook hfails
  | skips =>
    have hd : s.dropped look b = false := by
      rw [← Bool.not_eq_true, dropped_of_heap hx, hlook]
      simp
    have hs : s.skipped look b = true := (skipped_of_heap hx).mpr hlook
    have hsame : Function.update (s.walked k look l (b :: rest)).heap b (some x) = (s.walked k look l (b :: rest)).heap := by
      rw [← hheap, Function.update_eq_self]
    have hkeep := hstay (some x) (by rw [hlook]; rfl) hd
    rw [hsame] at hkeep
    refine congrArg some (Prod.ext hkeep ?_)
    unfold lastKept
    rw [filter_concat, hd, hs]
    simp
  | drops =>
    have hd : s.dropped look b = true := (dropped_of_heap hx).mpr hlook
    have hlast := getLast?_left (l := l) (b := b) (fun c d hcd => hpairs c d (hcd.trans ⟨[], rest, by simp [heq]⟩)) hd
    have hsplice : splice (s.lastKept look l) b ((l.filter fun b => !s.dropped look b) ++ b :: rest) =
        some ((l.filter fun b => !s.dropped look b) ++ rest) := by
      rw [← hlast]
      rcases List.eq_nil_or_concat (l.filter fun b => !s.dropped look b) with hnil | ⟨m, c, hm⟩
      · rw [hnil]
        exact splice_first b rest
      · have hsub : ((l.filter fun b => !s.dropped look b) ++ b :: rest).Nodup := by
          rw [heq] at hnodup
          exact hnodup.sublist (List.Sublist.append_right List.filter_sublist _)
        rw [List.concat_eq_append] at hm
        rw [hm] at hsub ⊢
        rw [List.getLast?_concat, List.append_assoc]
        rw [List.append_assoc] at hsub
        rw [List.append_assoc]
        exact splice_behind hsub
    dsimp only
    rw [hlist, hsplice, Option.map_some]
    refine congrArg some (Prod.ext ?_ ?_)
    · unfold walked
      rw [heap_concat hx hno, filter_concat, hd, hlook]
      simp [Outcome.after]
    · unfold lastKept
      rw [filter_concat, hd]
      simp
  | keeps y =>
    have hd : s.dropped look b = false := by
      rw [← Bool.not_eq_true, dropped_of_heap hx, hlook]
      simp
    have hs : s.skipped look b = false := by
      rw [← Bool.not_eq_true, skipped_of_heap hx, hlook]
      simp
    refine congrArg some (Prod.ext (hstay (some y) (by rw [hlook]; rfl) hd) ?_)
    unfold lastKept
    rw [filter_concat, hd, hs]
    simp

theorem foldlM_visit (heq : s.list k = l ++ rest) :
    rest.foldlM (visit k look) (s.walked k look l rest, s.lastKept look l) =
      some (s.walked k look (s.list k) [], s.lastKept look (s.list k)) := by
  induction rest generalizing l with
  | nil =>
    rw [heq, List.append_nil]
    rfl
  | cons b rest ih =>
    rw [List.foldlM_cons, visit_eq hnodup hlisted hpairs heq]
    exact ih (heq.trans (List.append_cons ..))

/-- **The loop** drops what it is to drop, keeps the rest on the list in its order, and does nothing else. -/
theorem walk_eq : s.walk k look = some (s.walked k look (s.list k) []) := by
  have hstart : s.walked k look [] (s.list k) = s := by
    unfold walked
    simp
  have hfold := foldlM_visit hnodup hlisted hpairs (l := []) rfl
  rw [hstart] at hfold
  unfold walk
  rw [show (none : Option β) = s.lastKept look [] from rfl, hfold, Option.map_some]

omit hnodup hlisted hpairs

/-- Where the loop stumbles: before the head of the list has been kept nothing can be dropped from behind it. -/
theorem walk_skipped (heq : s.list k = b :: c :: rest) (hne : b ≠ c) (hb : s.skipped look b = true)
    (hc : s.dropped look c = true) : s.walk k look = none := by
  obtain ⟨x, hx, hskips⟩ := skipped_iff.mp hb
  obtain ⟨y, hy, hdrops⟩ := dropped_iff.mp hc
  have hfirst : visit k look (s, none) b = some (s, none) := by
    unfold visit
    rw [hx, Option.bind_some, hskips]
  have hsecond : visit k look (s, none) c = none := by
    have hsplice : splice none c (s.list k) = none := by
      rw [heq]
      simp [splice, hne]
    unfold visit
    rw [hy, Option.bind_some, hdrops]
    simp [hsplice]
  unfold walk
  rw [heq, List.foldlM_cons, hfirst]
  simp [hsecond]

/-! ### What is left -/

theorem walked_list : (s.walked k look (s.list k) []).list k = (s.list k).filter fun b => !s.dropped look b :=
  (Function.update_self ..).trans (List.append_nil _)

theorem walked_list_of_ne {j : ι} (hj : j ≠ k) : (s.walked k look (s.list k) []).list j = s.list j :=
  Function.update_of_ne hj ..

theorem mem_walked {j : ι} :
    b ∈ (s.walked k look (s.list k) []).list j ↔ b ∈ s.list j ∧ (j = k → s.dropped look b = false) := by
  by_cases hj : j = k
  · subst hj
    rw [walked_list]
    simp
  · rw [walked_list_of_ne hj]
    simp [hj]

theorem walked_of_not_mem (hb : b ∉ s.list k) : (s.walked k look (s.list k) []).heap b = s.heap b := if_neg hb

theorem walked_of_mem (hb : b ∈ s.list k) (hx : s.heap b = some x) :
    (s.walked k look (s.list k) []).heap b = (look b x).after x := by
  show (if b ∈ s.list k then _ else _) = _
  rw [if_pos hb, hx, Option.bind_some]

theorem walked_eq_none (hb : b ∈ s.list k) (hx : s.heap b = some x) :
    (s.walked k look (s.list k) []).heap b = none ↔ s.dropped look b = true := by
  rw [walked_of_mem hb hx, dropped_of_heap hx]
  cases look b x <;> simp [Outcome.after]

/-- **The lists stay in order** when no block is changed so that it would belong elsewhere. -/
theorem Sound.walked {home : σ → ι} {loose : σ → Prop} (h : Sound home loose s)
    (hhome : ∀ b ∈ s.list k, ∀ x y, s.heap b = some x → (look b x).after x = some y → home y = home x) :
    Sound home loose (s.walked k look (s.list k) []) where
  nodup j := by
    by_cases hj : j = k
    · subst hj
      rw [walked_list]
      exact (h.nodup j).filter _
    · rw [walked_list_of_ne hj]
      exact h.nodup j
  listed j b hb := by
    obtain ⟨hbj, hkept⟩ := mem_walked.mp hb
    obtain ⟨x, hx, hk⟩ := h.listed j b hbj
    by_cases hj : j = k
    · subst hj
      rw [walked_of_mem hbj hx]
      have hd := hkept rfl
      cases hlook : look b x with
      | drops =>
        rw [(dropped_of_heap hx).mpr hlook] at hd
        cases hd
      | fails | skips => exact ⟨x, rfl, hk⟩
      | keeps y => exact ⟨y, rfl, (hhome b hbj x y hx (by rw [hlook]; rfl)).trans hk⟩
    · rw [walked_of_not_mem (h.not_mem hx (by rw [hk]; exact hj))]
      exact ⟨x, hx, hk⟩
  unlisted b y hy hno := by
    by_cases hb : b ∈ s.list k
    · obtain ⟨x, hx, hk⟩ := h.listed k b hb
      rw [walked_of_mem hb hx] at hy
      have hhomey : home y = k := (hhome b hb x y hx hy).trans hk
      refine absurd (mem_walked.mpr ⟨hhomey ▸ hb, fun _ => ?_⟩) hno
      rw [← Bool.not_eq_true, dropped_of_heap hx]
      intro hlook
      rw [hlook] at hy
      cases hy
    · rw [walked_of_not_mem hb] at hy
      refine h.unlisted b y hy fun hmem => hno (mem_walked.mpr ⟨hmem, fun hj => ?_⟩)
      exact absurd (hj ▸ hmem) hb

end Walk

end Lists

end Resource
