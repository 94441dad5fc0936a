import SuspiciousPackage.Detect.Refinement

/-!
# Detect.IdleTime — the result of the detection does not depend on idle time

Two runs that deliver the same frames agree at the `k`-th `frame_start`, however long the downsampler was idle before,
between and after the transfers (`idle_time_irrelevant`): both hold what the frame model has after `k` frames.
-/

namespace SuspiciousPackage

open Sync

namespace System

/-- What the decision at a `frame_start` depends on. -/
structure SameResult (s₁ s₂ : System) : Prop where
  diffCnt : s₁.datapath.diffCnt = s₂.datapath.diffCnt
  matchCnt : s₁.datapath.matchCnt = s₂.datapath.matchCnt
  suspicion : s₁.datapath.suspicion = s₂.datapath.suspicion
  ref : s₁.refMem = s₂.refMem
  diff : s₁.diffMem = s₂.diffMem

theorem Rested.sameResult {S : Tally} {s₁ s₂ : System} (h₁ : Rested S s₁) (h₂ : Rested S s₂) : SameResult s₁ s₂ where
  diffCnt := BitVec.eq_of_toNat_eq (h₁.diffCnt.trans h₂.diffCnt.symm)
  matchCnt := BitVec.eq_of_toNat_eq (h₁.matchCnt.trans h₂.matchCnt.symm)
  suspicion := h₁.suspicion.trans h₂.suspicion.symm
  ref := h₁.ref.trans h₂.ref.symm
  diff := h₁.diff.trans h₂.diff.symm

/-- **The detection does not depend on idle time.**  Two runs from power-up with the same fixed thresholds, in which
the start bit is raised in `WAIT_START` with no transfer in progress and from then on the same black/white frames `F` are
transferred: at the `k`-th `frame_start` the counts, the suspicion level and the contents of both RAMs are the same. -/
theorem idle_time_irrelevant (ins₁ ins₂ : ℕ → In) (thr : Thresholds) (F : ℕ → ℕ → Bool)
    (hidle₁ : StartsIdle ins₁ (runFrom init ins₁)) (hidle₂ : StartsIdle ins₂ (runFrom init ins₂))
    (hthr₁ : ∀ t, thresholds (ins₁ t) = thr) (hthr₂ : ∀ t, thresholds (ins₂ t) = thr)
    (hF₁ : Delivers ins₁ (runFrom init ins₁) F) (hF₂ : Delivers ins₂ (runFrom init ins₂) F) (k t₁ t₂ : ℕ)
    (hk₁ : Kth (Fires ins₁ (runFrom init ins₁)) k t₁) (hk₂ : Kth (Fires ins₂ (runFrom init ins₂)) k t₂) :
    SameResult (runFrom init ins₁ t₁) (runFrom init ins₂ t₂) :=
  (starting_of_kth hidle₁ hthr₁ hF₁ hk₁).toRested.sameResult (starting_of_kth hidle₂ hthr₂ hF₂ hk₂).toRested

/-! ## Two runs with different gaps -/

/-- The same with the first idle gap one cycle longer. -/
def blackFramesPaused (t : ℕ) : In :=
  if t = beginCycle 0 + frameSize + 2 then { blackFrames t with captureAddr := 0 } else blackFrames t

theorem blackFramesPaused_of_ne {t : ℕ} (h : t ≠ beginCycle 0 + frameSize + 2) :
    blackFramesPaused t = blackFrames t := if_neg h

theorem blackFramesPaused_captureAddr :
    (blackFramesPaused (beginCycle 0 + frameSize + 2)).captureAddr = 0 := by
  unfold blackFramesPaused
  rw [if_pos rfl]

theorem blackFramesPaused_bwThres (t : ℕ) : (blackFramesPaused t).bwThres = 0x70 := by
  unfold blackFramesPaused
  split_ifs <;> rfl

theorem blackFramesPaused_tdata (t : ℕ) : (blackFramesPaused t).tdata = 0 := by
  unfold blackFramesPaused
  split_ifs <;> rfl

theorem blackFramesPaused_startCapture (t : ℕ) : (blackFramesPaused t).startCapture = decide (1 ≤ t) := by
  unfold blackFramesPaused
  split_ifs <;> rfl

theorem thresholds_blackFramesPaused (t : ℕ) : thresholds (blackFramesPaused t) = ⟨0, 0, 1⟩ := by
  unfold blackFramesPaused
  split_ifs <;> rfl

/-- The start bit comes in cycle `1`, when the FSM is in `WAIT_START`. -/
theorem startsIdle_of_one {ins : ℕ → In} (hs : ∀ t, (ins t).startCapture = decide (1 ≤ t))
    (h1 : (runFrom init ins 1).currState = .waitStart ∧ (runFrom init ins 1).downsampler.transfer = false) :
    StartsIdle ins (runFrom init ins) := by
  intro t ht hns
  rw [hs, decide_eq_true_eq] at ht
  rcases Nat.lt_or_ge 1 t with hlt | hge
  · exact absurd ⟨1, hlt, by rw [hs]; rfl⟩ hns
  · rwa [show t = 1 by omega]

/-- A run that reads black words only delivers black frames. -/
theorem delivers_black {ins : ℕ → In} (hb : ∀ t, (ins t).bwThres = 0x70) (hd : ∀ t, (ins t).tdata = 0) :
    Delivers ins (runFrom init ins) fun _ _ => true := by
  intro k t hk a ha
  have hbeg := (begins_iff sound_init rfl).mp hk.1.1
  rw [frameAt_eq sound_init hbeg ha, hb, hd]
  show suspPixelIn 0x70 0 = true
  decide

/-- The first `frame_start` follows the first transfer after `init_done`. -/
theorem kth_zero_of_lead {ins : ℕ → In} {q p : ℕ} (hq : ∀ u < q, (runFrom init ins u).initDone = false)
    (hrest : ∀ u, q ≤ u → u < p → (runFrom init ins u).InPhase .rest) (hlead : (runFrom init ins p).InPhase .lead) :
    Kth (Fires ins (runFrom init ins)) 0 (p + 1) := by
  refine ⟨fires_iff.mpr (proc_phases sound_init hlead).1.1, Nat.count_iff_forall_not.mpr fun u hu hf => ?_⟩
  have hstart := inPhase_start (sound_runFrom sound_init _ u) (fires_iff.mp hf)
  rcases Nat.lt_or_ge u q with h1 | h1
  · exact absurd (hstart.2.1.symm.trans (hq u h1)) (by simp)
  · rcases Nat.lt_or_ge u p with h2 | h2
    · exact absurd (inPhase_unique hstart (hrest u h1 h2)) (by simp)
    · obtain rfl : u = p := by omega
      exact absurd (inPhase_unique hstart hlead) (by simp)

theorem kth_zero_blackFrames : Kth (Fires blackFrames (runFrom init blackFrames)) 0 (beginCycle 1 + 1) := by
  refine kth_zero_of_lead (fun u hu => initDone_low_backToBack _ _ hu) (fun u h1 h2 => ?_) (lead_backToBack _ _ le_rfl)
  rw [beginCycle_succ] at h2
  obtain rfl : u = beginCycle 0 + frameSize + 2 := by omega
  exact rest_backToBack _ _

/-- Up to the pause the two runs agree. -/
theorem runFrom_blackFramesPaused {t : ℕ} (ht : t ≤ beginCycle 0 + frameSize + 2) :
    runFrom init blackFramesPaused t = runFrom init blackFrames t :=
  run_congr fun u hu => blackFramesPaused_of_ne (by omega)

/-- The pause: no transfer begins with the camera address at `0`. -/
theorem beat_clock_of_captureAddr {s : System} (h : s.downsampler.Inv) (hb : s.beat = none) {i : In}
    (hi : i.captureAddr = 0) : (s.clock true i).beat = none := by
  have hn : ¬ Downsampler.Trigger (downsamplerIn i) s.downsampler := by
    rintro ⟨-, -, ha⟩
    rw [show (downsamplerIn i).captureAddr = 0 from hi, frameSize_eq] at ha
    exact absurd ha (by decide)
  have ht := beat_eq_none_iff.mp hb
  show (Downsampler.clock true _ _).beat = none
  rw [Downsampler.clock_hold ht (h.idle ht) hn]
  exact hb

theorem kth_zero_blackFramesPaused :
    Kth (Fires blackFramesPaused (runFrom init blackFramesPaused)) 0 (beginCycle 1 + 2) := by
  have hsound := sound_runFrom sound_init blackFramesPaused
  have hrest : (runFrom init blackFramesPaused (beginCycle 0 + frameSize + 2)).InPhase .rest := by
    rw [runFrom_blackFramesPaused le_rfl]
    exact rest_backToBack _ _
  have hdone : ∀ n, (runFrom init blackFramesPaused (beginCycle 0 + frameSize + 2 + n)).initDone = true :=
    fun n => initDone_mono (Nat.le_add_right _ n) hrest.2.1
  have hrest' : (runFrom init blackFramesPaused (beginCycle 0 + frameSize + 2 + 1)).InPhase .rest := by
    refine inPhase_rest (hsound _) (hdone 1) ?_
    rw [runFrom_succ]
    exact beat_clock_of_captureAddr (hsound _).inv hrest.2.2 blackFramesPaused_captureAddr
  have hlead : (runFrom init blackFramesPaused (beginCycle 0 + frameSize + 2 + 2)).InPhase .lead := by
    refine inPhase_lead (hsound _) (hdone 2) ?_
    rw [show beginCycle 0 + frameSize + 2 + 2 = beginCycle 0 + frameSize + 2 + 1 + 1 from rfl, runFrom_succ,
      blackFramesPaused_of_ne (by omega)]
    exact beat_clock_trigger _ _ (hsound _).inv hrest'.2.2 (by omega)
  rw [beginCycle_succ]
  refine kth_zero_of_lead (q := beginCycle 0 + frameSize + 2) (fun u hu => ?_) (fun u h1 h2 => ?_) hlead
  · rw [runFrom_blackFramesPaused hu.le]
    exact initDone_low_backToBack _ _ hu
  · rcases show u = beginCycle 0 + frameSize + 2 ∨ u = beginCycle 0 + frameSize + 2 + 1 by omega with rfl | rfl
    · exact hrest
    · exact hrest'

/-- The first decision of the two runs of black frames, in the cycles `beginCycle 1 + 1` and `beginCycle 1 + 2`. -/
theorem idle_time_irrelevant_black :
    SameResult (runFrom init blackFrames (beginCycle 1 + 1)) (runFrom init blackFramesPaused (beginCycle 1 + 2)) :=
  idle_time_irrelevant blackFrames blackFramesPaused ⟨0, 0, 1⟩ (fun _ _ => true)
    (startsIdle_of_one (fun _ => rfl) ⟨rfl, rfl⟩) (startsIdle_of_one blackFramesPaused_startCapture ⟨rfl, rfl⟩)
    (fun _ => rfl) thresholds_blackFramesPaused
    (delivers_black (fun _ => rfl) fun _ => rfl) (delivers_black blackFramesPaused_bwThres blackFramesPaused_tdata)
    0 _ _ kth_zero_blackFrames kth_zero_blackFramesPaused

end System

end SuspiciousPackage
