import SuspiciousPackage.Sync.Run
import SuspiciousPackage.Detect.Steady

/-!
# Detect.Suspicion — the suspicion level and the run of matching frames

`suspicion` has 9 bits, the threshold 16.  Up to the threshold `511` the level is the length of the current run of
matching frames, railed at the threshold; above, it is that length modulo `512` and never reaches the threshold
(`suspicion_eq`).  `suspicionCounts_iff`: the level counts matching frames exactly for the thresholds up to `511`.
-/

namespace SuspiciousPackage

open Sync

namespace Datapath

def runFrom (d₀ : Datapath) (ins : ℕ → In) : ℕ → Datapath := run step d₀ ins

/-- The number of most recent consecutive `frame_start` cycles before cycle `t` at which `frame_match` was high. -/
def matchRun (ins : ℕ → In) (r : ℕ → Datapath) : ℕ → ℕ :=
  streak (fun t => (ins t).frameStart) fun t => (r t).frameMatch (ins t)

/-- `resetn` and `init_done` are high, and the suspicion threshold is `T`. -/
structure Detecting (T : BitVec 16) (i : In) : Prop where
  resetn : i.resetn = true
  initDone : i.initDone = true
  suspicionThres : i.suspicionThres = T

section Step

variable {T : BitVec 16} {i : In} {d : Datapath}

theorem step_suspicion (h : Detecting T i) :
    (d.step i).suspicion = if i.frameStart then d.nextSuspicion i else d.suspicion := by
  have hset : d.settle i.resetn = d := by rw [h.resetn, settle_true]
  unfold step
  rw [hset]
  simp [clock, h.resetn, h.initDone]

/-- The level after a matching frame. -/
theorem nextSuspicion_of_match (h : Detecting T i) (hm : d.frameMatch i = true) :
    d.nextSuspicion i = if d.suspicion.toNat < T.toNat then d.suspicion + 1 else d.suspicion := by
  unfold nextSuspicion
  rw [if_neg (by simp [hm]), h.suspicionThres]

theorem nextSuspicion_of_not_match (hm : d.frameMatch i = false) : d.nextSuspicion i = 0 := if_pos hm

/-- A cycle with `resetn` or `init_done` low clears the level. -/
theorem step_cleared (hi : i.resetn = false ∨ i.initDone = false) : (d.step i).suspicion = 0 := if_pos hi

/-- The level for a run of `n` matching frames at the threshold `T`. -/
def levelOf (T : BitVec 16) (n : ℕ) : ℕ := if T.toNat ≤ 511 then min n T.toNat else n % 512

/-- One more matching frame. -/
theorem levelOf_succ {n : ℕ} {x : BitVec 9} (hx : x.toNat = levelOf T n) :
    (if x.toNat < T.toNat then x + 1 else x).toNat = levelOf T (n + 1) := by
  have hlt := x.isLt
  have hadd : (x + 1).toNat = (x.toNat + 1) % 512 := by rw [BitVec.toNat_add]; rfl
  unfold levelOf at *
  by_cases hT : T.toNat ≤ 511
  · rw [if_pos hT] at hx ⊢
    split_ifs with hlt
    · rw [hadd]; omega
    · omega
  · rw [if_neg hT] at hx ⊢
    rw [if_pos (by omega), hadd]
    omega

end Step

section Run

variable {T : BitVec 16} {d₀ : Datapath} {ins : ℕ → In}

/-- **What the level counts**, from a cleared level on. -/
theorem suspicion_eq (h0 : d₀.suspicion = 0) (hdet : ∀ t, Detecting T (ins t)) (t : ℕ) :
    (runFrom d₀ ins t).suspicion.toNat = levelOf T (matchRun ins (runFrom d₀ ins) t) := by
  induction t with
  | zero =>
    show d₀.suspicion.toNat = levelOf T 0
    rw [h0]
    simp [levelOf]
  | succ t ih =>
    have hstep : (runFrom d₀ ins (t + 1)).suspicion =
        if (ins t).frameStart then (runFrom d₀ ins t).nextSuspicion (ins t) else (runFrom d₀ ins t).suspicion :=
      step_suspicion (hdet t)
    rw [hstep]
    cases hfs : (ins t).frameStart
    · rw [if_neg (by simp), ih]
      exact congrArg _ (streak_of_not_event hfs).symm
    · rw [if_pos rfl]
      cases hm : (runFrom d₀ ins t).frameMatch (ins t)
      · have hzero : matchRun ins (runFrom d₀ ins) (t + 1) = 0 := streak_of_not_ok hfs hm
        rw [nextSuspicion_of_not_match hm, hzero]
        simp [levelOf]
      · have hsucc : matchRun ins (runFrom d₀ ins) (t + 1) = matchRun ins (runFrom d₀ ins) t + 1 :=
          streak_of_ok hfs hm
        rw [nextSuspicion_of_match (hdet t) hm, hsucc]
        exact levelOf_succ ih

end Run

/-- The suspicion level counts matching frames: from a cleared level on, with `resetn` and `init_done` high and the fixed
threshold `T`, in every cycle `t`, `r` being the length of the current run of matching frames, `suspicion = min r T`,
`suspicion_detected` iff `r ≥ T`, and a raised alert stays raised while frames keep matching. -/
def SuspicionCounts (T : BitVec 16) : Prop :=
  ∀ (d : Datapath) (i : In) (ins : ℕ → In), (i.resetn = false ∨ i.initDone = false) → (∀ t, Detecting T (ins t)) →
    ∀ t, (runFrom (d.step i) ins t).suspicion.toNat = min (matchRun ins (runFrom (d.step i) ins) t) T.toNat ∧
      ((runFrom (d.step i) ins t).suspicionDetected (ins t) = true ↔
        T.toNat ≤ matchRun ins (runFrom (d.step i) ins) t) ∧
      ∀ t', t ≤ t' → (runFrom (d.step i) ins t).suspicionDetected (ins t) = true →
        (∀ u, t ≤ u → u < t' → (ins u).frameStart = true → (runFrom (d.step i) ins u).frameMatch (ins u) = true) →
        (runFrom (d.step i) ins t').suspicionDetected (ins t') = true

theorem suspicionCounts_of_le {T : BitVec 16} (hT : T.toNat ≤ 511) : SuspicionCounts T := by
  intro d i ins hi hdet t
  have hlevel : ∀ t, (runFrom (d.step i) ins t).suspicion.toNat =
      min (matchRun ins (runFrom (d.step i) ins) t) T.toNat := by
    intro t
    rw [suspicion_eq (step_cleared hi) hdet, levelOf, if_pos hT]
  have hiff : ∀ t, (runFrom (d.step i) ins t).suspicionDetected (ins t) = true ↔
      T.toNat ≤ matchRun ins (runFrom (d.step i) ins) t := by
    intro t
    unfold suspicionDetected
    rw [decide_eq_true_iff, (hdet t).suspicionThres, hlevel t]
    omega
  refine ⟨hlevel t, hiff t, fun t' htt hd hm => ?_⟩
  rw [hiff] at hd ⊢
  exact hd.trans (streak_le htt hm)

/-! ## A run of `512` matching frames -/

/-- Steady inputs: a pixel that differs from the reference and matches the last difference, at address `0`, with
`frame_start` in every second cycle from cycle `6` on. -/
def steadyIn (T : BitVec 16) (initDone : Bool) (t : ℕ) : In where
  initDone := initDone
  frameStart := decide (6 ≤ t ∧ t % 2 = 0)
  resetn := true
  pixelIn := initDone
  refAddr := 0
  refWren := false
  refBramEnable := true
  diffAddr := 0
  diffWren := initDone
  diffBramEnable := true
  objectThres := 0
  staticThres := 0
  suspicionThres := T

section Steady

variable {T : BitVec 16}

theorem detecting_steadyIn (t : ℕ) : Detecting T (steadyIn T true t) := ⟨rfl, rfl, rfl⟩

theorem pumping_steadyIn (t : ℕ) : Pumping (steadyIn T true t) := ⟨rfl, rfl, rfl, rfl, rfl, rfl, rfl, rfl, rfl⟩

/-- From power-up, `init_done` low in the first cycle. -/
def steadyRun (T : BitVec 16) : ℕ → Datapath := runFrom (init.step (steadyIn T false 0)) (steadyIn T true)

theorem steady_five : (steadyRun T 5).Steady := ⟨rfl, rfl, rfl, rfl, rfl, rfl, rfl, rfl, rfl, rfl⟩

theorem steady_steadyRun (n : ℕ) : (steadyRun T (5 + n)).Steady := by
  induction n with
  | zero => exact steady_five
  | succ n ih => exact ih.step (pumping_steadyIn (5 + n))

/-- Every `frame_start` of the run finds a match. -/
theorem frameMatch_steadyRun (k : ℕ) : (steadyRun T (6 + 2 * k)).frameMatch (steadyIn T true (6 + 2 * k)) = true := by
  have hfs : ∀ k, (steadyIn T true (6 + 2 * k)).frameStart = true := fun k => decide_eq_true (by omega)
  have hno : ∀ k, (steadyIn T true (6 + 2 * k + 1)).frameStart = false := fun k => decide_eq_false (by omega)
  rw [frameMatch_iff]
  rcases k with _ | k
  · have h1 : (steadyRun T 6).diffCnt.toNat = 4 := rfl
    have h2 : (steadyRun T 6).matchCnt.toNat = 1 := rfl
    exact ⟨show 0 < (steadyRun T 6).diffCnt.toNat by omega, show 0 < (steadyRun T 6).matchCnt.toNat by omega⟩
  · have hz : (steadyRun T (6 + 2 * k + 1)).diffCnt = 0 ∧ (steadyRun T (6 + 2 * k + 1)).matchCnt = 0 :=
      counts_of_frameStart (pumping_steadyIn _) (hfs k)
    have hsteady : (steadyRun T (6 + 2 * k + 1)).Steady := by
      rw [show 6 + 2 * k + 1 = 5 + (2 + 2 * k) by omega]
      exact steady_steadyRun _
    obtain ⟨c1, c2⟩ := hsteady.counts (pumping_steadyIn _) (hno k)
    have h1 : (steadyRun T (6 + 2 * (k + 1))).diffCnt = bump 0 true := by
      rw [← hz.1]
      exact c1
    have h2 : (steadyRun T (6 + 2 * (k + 1))).matchCnt = bump 0 true := by
      rw [← hz.2]
      exact c2
    have hbump : 0 < (bump (0 : BitVec 17) true).toNat := by decide
    rw [h1, h2]
    exact ⟨hbump, hbump⟩

theorem matchRun_steadyRun (k : ℕ) : matchRun (steadyIn T true) (steadyRun T) (6 + 2 * k) = k := by
  induction k with
  | zero => rfl
  | succ k ih =>
    have hno : (steadyIn T true (6 + 2 * k + 1)).frameStart = false := decide_eq_false (by omega)
    have hfs : (steadyIn T true (6 + 2 * k)).frameStart = true := decide_eq_true (by omega)
    have h1 : matchRun (steadyIn T true) (steadyRun T) (6 + 2 * k + 1 + 1) =
        matchRun (steadyIn T true) (steadyRun T) (6 + 2 * k + 1) := streak_of_not_event hno
    have h2 : matchRun (steadyIn T true) (steadyRun T) (6 + 2 * k + 1) =
        matchRun (steadyIn T true) (steadyRun T) (6 + 2 * k) + 1 := streak_of_ok hfs (frameMatch_steadyRun k)
    rw [show 6 + 2 * (k + 1) = 6 + 2 * k + 1 + 1 by omega, h1, h2, ih]

/-- After `512` matching frames the level is `0` when the threshold is above `511`. -/
theorem suspicion_steadyRun (hT : 511 < T.toNat) : (steadyRun T (6 + 2 * 512)).suspicion.toNat = 0 := by
  have h : (steadyRun T (6 + 2 * 512)).suspicion.toNat =
      levelOf T (matchRun (steadyIn T true) (steadyRun T) (6 + 2 * 512)) :=
    suspicion_eq (step_cleared (Or.inr rfl)) detecting_steadyIn _
  rw [h, matchRun_steadyRun, levelOf, if_neg (by omega)]

theorem not_suspicionCounts (hT : 511 < T.toNat) : ¬ SuspicionCounts T := by
  intro h
  obtain ⟨hlevel, -⟩ := h init (steadyIn T false 0) (steadyIn T true) (Or.inr rfl) detecting_steadyIn (6 + 2 * 512)
  have hmin : (steadyRun T (6 + 2 * 512)).suspicion.toNat =
      min (matchRun (steadyIn T true) (steadyRun T) (6 + 2 * 512)) T.toNat := hlevel
  rw [suspicion_steadyRun hT, matchRun_steadyRun] at hmin
  omega

end Steady

/-- **When the suspicion level counts matching frames**: iff the threshold fits the 9-bit level. -/
theorem suspicionCounts_iff (T : BitVec 16) : SuspicionCounts T ↔ T.toNat ≤ 511 := by
  constructor
  · intro h
    by_contra hT
    exact not_suspicionCounts (by omega) h
  · exact suspicionCounts_of_le

/-- At the threshold `512` the level wraps to `0` with the `512`-th matching frame. -/
theorem suspicion_wraps :
    matchRun (steadyIn 512 true) (steadyRun 512) (6 + 2 * 512) = 512 ∧
      (steadyRun 512 (6 + 2 * 512)).suspicion.toNat = 0 ∧ ¬ SuspicionCounts 512 :=
  ⟨matchRun_steadyRun 512, suspicion_steadyRun (by decide), not_suspicionCounts (by decide)⟩

end Datapath

end SuspiciousPackage
