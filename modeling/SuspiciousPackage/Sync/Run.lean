import Mathlib.Data.Nat.Count
import Mathlib.Tactic.Common

/-!
# Sync.Run — runs of clocked machines

A clocked machine is a function `step : ι → σ → σ`: the registers after a clock edge, from the inputs sampled at the
edge and the registers before it.  `run step s₀ ins t` is the register state during cycle `t`, when `ins s` is
sampled at the end of cycle `s`.  Nothing here is about a particular machine.

Rules: `run_inv` (inductive invariants), `run_window` (an invariant indexed by the number of cycles since a given
one, for a bounded number of cycles), `run_congr` (causality), `run_proj` (a component of a composed machine runs as
a machine of its own).  `Kth P k t` numbers the cycles in which an event `P` occurs, `Next P x y` says which one follows
cycle `x` (`Next.keep`: what event-free cycles keep), `streak ev ok t` counts its most recent consecutive successes.
`haltRun step s₀ ins` is the run of a machine that may halt, with `haltRun_inv` for the cycles before it does.
-/

namespace Sync

variable {σ σ' ι ι' : Type*} {step : ι → σ → σ} {s₀ : σ} {ins : ℕ → ι}

/-- The registers during cycle `t` of the run from `s₀` on the inputs `ins`. -/
def run (step : ι → σ → σ) (s₀ : σ) (ins : ℕ → ι) : ℕ → σ
  | 0 => s₀
  | t + 1 => step (ins t) (run step s₀ ins t)

theorem run_succ (t : ℕ) : run step s₀ ins (t + 1) = step (ins t) (run step s₀ ins t) := rfl

/-- An inductive invariant holds in every state of a run. -/
theorem run_inv {I : σ → Prop} (h0 : I s₀) (hstep : ∀ i s, I s → I (step i s)) (t : ℕ) :
    I (run step s₀ ins t) := by
  induction t with
  | zero => exact h0
  | succ t ih => exact hstep _ _ ih

/-- **Window rule**: an invariant `P c` indexed by the number `c` of cycles since cycle `t`, kept by the
steps before the `n`-th. -/
theorem run_window {P : ℕ → σ → Prop} {t n : ℕ} (h0 : P 0 (run step s₀ ins t))
    (hstep : ∀ c < n, P c (run step s₀ ins (t + c)) → P (c + 1) (run step s₀ ins (t + c + 1))) :
    ∀ c ≤ n, P c (run step s₀ ins (t + c)) := by
  intro c
  induction c with
  | zero => intro _; exact h0
  | succ c ih => intro hc; exact hstep c (by omega) (ih (by omega))

/-- Cycle `t` depends on the inputs of the earlier cycles only. -/
theorem run_congr {ins' : ℕ → ι} {t : ℕ} (h : ∀ u < t, ins u = ins' u) :
    run step s₀ ins t = run step s₀ ins' t := by
  induction t with
  | zero => rfl
  | succ t ih => rw [run_succ, run_succ, ih fun u hu => h u (by omega), h t (Nat.lt_succ_self t)]

/-- A component `f` of a run is a run of its own when each step moves it by `step'`. -/
theorem run_proj {step' : ι' → σ' → σ'} {ins' : ℕ → ι'} {f : σ → σ'}
    (h : ∀ t, f (step (ins t) (run step s₀ ins t)) = step' (ins' t) (f (run step s₀ ins t))) (t : ℕ) :
    f (run step s₀ ins t) = run step' (f s₀) ins' t := by
  induction t with
  | zero => rfl
  | succ t ih => rw [run_succ, run_succ, ← ih]; exact h t

/-! ## Machines that may halt -/

section Halt

variable {ε : Type*} {step : ι → σ → Except ε σ}

/-- The run of a machine whose steps may halt it, for the reason given. -/
def haltRun (step : ι → σ → Except ε σ) (s₀ : σ) (ins : ℕ → ι) : ℕ → Except ε σ :=
  run (fun i r => r.bind (step i)) (.ok s₀) ins

theorem haltRun_succ_of_ok {t : ℕ} {s : σ} (h : haltRun step s₀ ins t = .ok s) :
    haltRun step s₀ ins (t + 1) = step (ins t) s := by
  show (haltRun step s₀ ins t).bind (step (ins t)) = _
  rw [h]
  rfl

/-- Once halted, the machine stays so. -/
theorem haltRun_succ_of_error {t : ℕ} {e : ε} (h : haltRun step s₀ ins t = .error e) :
    haltRun step s₀ ins (t + 1) = .error e := by
  show (haltRun step s₀ ins t).bind (step (ins t)) = _
  rw [h]
  rfl

/-- A machine that still runs has run before. -/
theorem haltRun_pred {t : ℕ} {s' : σ} (h : haltRun step s₀ ins (t + 1) = .ok s') :
    ∃ s, haltRun step s₀ ins t = .ok s ∧ step (ins t) s = .ok s' := by
  cases hr : haltRun step s₀ ins t with
  | error e =>
    rw [haltRun_succ_of_error hr] at h
    cases h
  | ok s =>
    rw [haltRun_succ_of_ok hr] at h
    exact ⟨s, rfl, h⟩

/-- An invariant that may speak of the cycle holds as long as the machine runs. -/
theorem haltRun_inv {I : ℕ → σ → Prop} (h0 : I 0 s₀)
    (hstep : ∀ t s s', haltRun step s₀ ins t = .ok s → step (ins t) s = .ok s' → I t s → I (t + 1) s') :
    ∀ t s, haltRun step s₀ ins t = .ok s → I t s := by
  intro t
  induction t with
  | zero =>
    intro s hs
    cases hs
    exact h0
  | succ t ih =>
    intro s' hs'
    obtain ⟨s, hs, hst⟩ := haltRun_pred hs'
    exact hstep t s s' hs hst (ih s hs)

/-- A halt has a last step before it. -/
theorem haltRun_halts {t : ℕ} {e : ε} (h : haltRun step s₀ ins t = .error e) :
    ∃ u s, u < t ∧ haltRun step s₀ ins u = .ok s ∧ step (ins u) s = .error e := by
  induction t with
  | zero => cases h
  | succ t ih =>
    cases hr : haltRun step s₀ ins t with
    | error e' =>
      rw [haltRun_succ_of_error hr] at h
      cases h
      obtain ⟨u, s, hu, hs⟩ := ih hr
      exact ⟨u, s, Nat.lt_succ_of_lt hu, hs⟩
    | ok s =>
      rw [haltRun_succ_of_ok hr] at h
      exact ⟨t, s, Nat.lt_succ_self t, hr, h⟩

end Halt

/-! ## Numbered events -/

section Events

variable {P : ℕ → Prop} [DecidablePred P]

/-- Cycle `t` is the `k`-th cycle (counted from `0`) in which the event `P` occurs. -/
def Kth (P : ℕ → Prop) [DecidablePred P] (k t : ℕ) : Prop := P t ∧ Nat.count P t = k

/-- The next event after the `k`-th one. -/
theorem Kth.next {k x y : ℕ} (hx : Kth P k x) (hy : P y) (hxy : x < y) (hno : ∀ z, x < z → z < y → ¬ P z) :
    Kth P (k + 1) y := by
  refine ⟨hy, ?_⟩
  clear hy
  induction y, hxy using Nat.le_induction with
  | base => rw [Nat.count_succ_eq_succ_count_iff.mpr hx.1, hx.2]
  | succ y hxy ih =>
    rw [Nat.count_succ_eq_count_iff.mpr (hno y hxy (Nat.lt_succ_self y))]
    exact ih fun z h1 h2 => hno z h1 (by omega)

/-- The last one of `k + 1` events. -/
theorem exists_kth {k t : ℕ} (h : Nat.count P t = k + 1) : ∃ u < t, Kth P k u := by
  induction t with
  | zero => cases h
  | succ t ih =>
    by_cases hP : P t
    · rw [Nat.count_succ_eq_succ_count_iff.mpr hP] at h
      exact ⟨t, Nat.lt_succ_self t, hP, Nat.succ_injective h⟩
    · rw [Nat.count_succ_eq_count_iff.mpr hP] at h
      obtain ⟨u, hu, hk⟩ := ih h
      exact ⟨u, Nat.lt_succ_of_lt hu, hk⟩

/-- Between the `k`-th event and the next one there is none. -/
theorem Kth.none {k x y : ℕ} (hx : Kth P k x) (hy : Nat.count P y = k + 1) :
    x < y ∧ ∀ z, x < z → z < y → ¬ P z := by
  refine ⟨?_, fun z hxz hzy hz => ?_⟩
  · by_contra hle
    have hmono := Nat.count_monotone P (Nat.le_of_not_lt hle)
    rw [hy, hx.2] at hmono
    omega
  · have hone : Nat.count P (x + 1) = k + 1 := by rw [Nat.count_succ_eq_succ_count_iff.mpr hx.1, hx.2]
    have hle : Nat.count P (x + 1) ≤ Nat.count P z := Nat.count_monotone P hxz
    have hlt : Nat.count P (z + 1) ≤ Nat.count P y := Nat.count_monotone P hzy
    rw [Nat.count_succ_eq_succ_count_iff.mpr hz] at hlt
    omega

/-- Cycle `y` is the first one after cycle `x` in which the event `P` occurs. -/
structure Next (P : ℕ → Prop) (x y : ℕ) : Prop where
  event : P y
  lt : x < y
  none : ∀ z, x < z → z < y → ¬ P z

/-- What event-free cycles keep still holds when the next event occurs. -/
theorem Next.keep {P J : ℕ → Prop} {x y a : ℕ} (h : Next P x y) (hxa : x < a) (hay : a ≤ y) (h0 : J a)
    (hstep : ∀ z, a ≤ z → ¬ P z → J z → J (z + 1)) : J y := by
  have hkeep : ∀ z, a ≤ z → z ≤ y → J z := by
    intro z haz
    induction z, haz using Nat.le_induction with
    | base => intro _; exact h0
    | succ z haz ih => intro hz; exact hstep z haz (h.none z (by omega) (by omega)) (ih (by omega))
  exact hkeep y hay le_rfl

end Events

/-! ## Streaks -/

section Streak

variable {ev ok : ℕ → Bool}

/-- The number of most recent consecutive events before cycle `t` at which `ok` held. -/
def streak (ev ok : ℕ → Bool) : ℕ → ℕ
  | 0 => 0
  | t + 1 => if ev t then (if ok t then streak ev ok t + 1 else 0) else streak ev ok t

theorem streak_of_not_event {t : ℕ} (h : ev t = false) : streak ev ok (t + 1) = streak ev ok t := by
  simp [streak, h]

theorem streak_of_ok {t : ℕ} (h : ev t = true) (hok : ok t = true) :
    streak ev ok (t + 1) = streak ev ok t + 1 := by
  simp [streak, h, hok]

theorem streak_of_not_ok {t : ℕ} (h : ev t = true) (hok : ok t = false) : streak ev ok (t + 1) = 0 := by
  simp [streak, h, hok]

/-- A streak only grows while every event is a success. -/
theorem streak_le {t t' : ℕ} (htt : t ≤ t') (h : ∀ u, t ≤ u → u < t' → ev u = true → ok u = true) :
    streak ev ok t ≤ streak ev ok t' := by
  induction t', htt using Nat.le_induction with
  | base => exact le_rfl
  | succ t' htt ih =>
    refine (ih fun u h1 h2 => h u h1 (by omega)).trans ?_
    cases he : ev t'
    · rw [streak_of_not_event he]
    · rw [streak_of_ok he (h t' htt (Nat.lt_succ_self t') he)]
      exact Nat.le_succ _

end Streak

end Sync
