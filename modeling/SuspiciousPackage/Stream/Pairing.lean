import Mathlib.Data.List.Basic
import Mathlib.Tactic.Common

/-!
# Stream.Pairing — a stream of flagged symbols read two at a time

A symbol whose flag is up opens a pair, the next symbol closes it, whatever its own flag; a symbol without flag between
two pairs is skipped.  `pairs` reads a stream from its beginning; `pairs_concat` and `opened_concat` say what one more
symbol at its end does, which is how a receiver sees it.
-/

namespace Pairing

variable {α : Type*}

/-- The pairs closed in a stream, in their order. -/
def pairs : List (Bool × α) → List (α × α)
  | [] => []
  | (false, _) :: l => pairs l
  | [(true, _)] => []
  | (true, a) :: (_, b) :: l => (a, b) :: pairs l

/-- The symbol of the pair that is still open at the end of a stream. -/
def opened : List (Bool × α) → Option α
  | [] => none
  | (false, _) :: l => opened l
  | [(true, a)] => some a
  | (true, _) :: _ :: l => opened l

@[simp] theorem pairs_nil : pairs ([] : List (Bool × α)) = [] := rfl

@[simp] theorem opened_nil : opened ([] : List (Bool × α)) = none := rfl

/-- A symbol closes the open pair. -/
theorem pairs_concat (l : List (Bool × α)) (f : Bool) (b : α) :
    pairs (l ++ [(f, b)]) = pairs l ++ ((opened l).map (·, b)).toList := by
  induction l using pairs.induct with
  | case1 => cases f <;> rfl
  | case2 a l ih => exact ih
  | case3 a => rfl
  | case4 a f' b' l ih =>
    show (a, b') :: pairs (l ++ [(f, b)]) = _
    rw [ih]
    rfl

/-- With no pair open, a flagged symbol opens one. -/
theorem opened_concat (l : List (Bool × α)) (f : Bool) (b : α) :
    opened (l ++ [(f, b)]) = if (opened l).isNone && f then some b else none := by
  induction l using opened.induct with
  | case1 => cases f <;> rfl
  | case2 a l ih => exact ih
  | case3 a => rfl
  | case4 a x l ih => exact ih

theorem length_pairs_le (l : List (Bool × α)) : 2 * (pairs l).length ≤ l.length := by
  induction l using pairs.induct with
  | case1 => exact Nat.le_refl _
  | case2 a l ih => exact Nat.le_succ_of_le ih
  | case3 a => exact Nat.zero_le _
  | case4 a f b l ih =>
    show 2 * ((pairs l).length + 1) ≤ l.length + 1 + 1
    omega

/-! ### Streams that encode pairs -/

/-- Pairs sent back to back. -/
def burst (ps : List (α × α)) : List (Bool × α) := ps.flatMap fun p => [(true, p.1), (true, p.2)]

/-- Symbols without flag. -/
def gap (xs : List α) : List (Bool × α) := xs.map fun x => (false, x)

theorem pairs_burst_append (ps : List (α × α)) (l : List (Bool × α)) : pairs (burst ps ++ l) = ps ++ pairs l := by
  induction ps with
  | nil => rfl
  | cons p ps ih =>
    show (p.1, p.2) :: pairs (burst ps ++ l) = _
    rw [ih]
    rfl

theorem pairs_gap_append (xs : List α) (l : List (Bool × α)) : pairs (gap xs ++ l) = pairs l := by
  induction xs with
  | nil => rfl
  | cons x xs ih => exact ih

/-- Bursts of pairs, each with the gap after it. -/
def send (bursts : List (List (α × α) × List α)) : List (Bool × α) := bursts.flatMap fun x => burst x.1 ++ gap x.2

/-- **Round trip**: the pairs sent in bursts are read back, whatever the gaps. -/
theorem pairs_send (bursts : List (List (α × α) × List α)) : pairs (send bursts) = bursts.flatMap Prod.fst := by
  induction bursts with
  | nil => rfl
  | cons x bursts ih =>
    show pairs (burst x.1 ++ gap x.2 ++ send bursts) = x.1 ++ bursts.flatMap Prod.fst
    rw [List.append_assoc, pairs_burst_append, pairs_gap_append, ih]

end Pairing
