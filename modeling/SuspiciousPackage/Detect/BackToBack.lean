import SuspiciousPackage.Detect.Transfers

/-!
# Detect.BackToBack — runs with a single idle cycle between transfers

`backToBack` are inputs under which the downsampler streams one transfer after the other: decimation rate `0`, the
camera address at the end of a frame from cycle `2` on, the start bit set in cycle `1`.  Transfer `k` begins in cycle
`3 + k * (frameSize + 3)` (`beat_beginCycle`); transfer `0` is the reference.  The words read from the frame buffer
and the thresholds are free.
-/

namespace SuspiciousPackage

open Sync

namespace System

/-- Inputs for back-to-back transfers of the words `tdata`. -/
def backToBack (tdata : ℕ → BitVec 16) (thr : Thresholds) (t : ℕ) : In where
  vsync := false
  captureAddr := if t < 2 then 0 else 76799
  decimationRate := 0
  tdata := tdata t
  i2cConfigDone := true
  startCapture := decide (1 ≤ t)
  bwThres := 0x70
  detectionThres := thr.object
  staticThres := thr.static
  suspicionThres := thr.suspicion

/-- Black frames back to back, with the lowest thresholds. -/
def blackFrames : ℕ → In := backToBack (fun _ => 0) ⟨0, 0, 1⟩

/-- The cycle in which transfer `k` begins. -/
def beginCycle (k : ℕ) : ℕ := 3 + k * (frameSize + 3)

theorem beginCycle_succ (k : ℕ) : beginCycle (k + 1) = beginCycle k + frameSize + 2 + 1 := by
  unfold beginCycle
  rw [Nat.add_mul]
  omega

section

variable (tdata : ℕ → BitVec 16) (thr : Thresholds)

/-- With these inputs an idle downsampler begins a transfer. -/
theorem beat_clock_trigger {s : System} (h : s.downsampler.Inv) (hb : s.beat = none) {t : ℕ} (ht : 2 ≤ t) :
    (s.clock true (backToBack tdata thr t)).beat = some 0 := by
  have htr : Downsampler.Trigger (downsamplerIn (backToBack tdata thr t)) s.downsampler := by
    refine ⟨?_, beat_eq_none_iff.mp hb, ?_⟩
    · simp [Downsampler.maxVsyncCnt, downsamplerIn, backToBack]
    · simp [downsamplerIn, backToBack, show ¬ t < 2 by omega, frameSize]
  exact Downsampler.beat_of_trigger h htr

theorem backToBack_two : (runFrom init (backToBack tdata thr) 2).InPhase (.wait none) :=
  ⟨rfl, rfl, rfl⟩

theorem backToBack_three : (runFrom init (backToBack tdata thr) 3).InPhase (.wait (some 0)) := by
  have h := backToBack_two tdata thr
  have hinv := (sound_runFrom sound_init (backToBack tdata thr) 2).inv
  obtain ⟨p', hp', hn⟩ := phase_step (backToBack tdata thr 2) hinv h
  have hb := beat_clock_trigger tdata thr hinv h.2.2 le_rfl
  cases hn with
  | waitIdle => exact absurd hb (by simp [hp'.2.2])
  | waitBegin => exact hp'

theorem beat_beginCycle (k : ℕ) :
    (runFrom init (backToBack tdata thr) (beginCycle k)).beat = some 0 := by
  induction k with
  | zero => exact (backToBack_three _ _).2.2
  | succ k ih =>
    rw [beginCycle_succ, runFrom_succ]
    exact beat_clock_trigger _ _ (sound_runFrom sound_init _ _).inv (transfer_ends sound_init ih)
      (by unfold beginCycle; omega)

/-- No other cycle begins a transfer. -/
theorem beginCycle_of_beat {t : ℕ} (hb : (runFrom init (backToBack tdata thr) t).beat = some 0) :
    ∃ k, t = beginCycle k := by
  by_cases ht : t < 3
  · obtain rfl | rfl | rfl : t = 0 ∨ t = 1 ∨ t = 2 := by omega
    all_goals exact absurd (hb.symm.trans rfl : some 0 = none) (by simp)
  · refine ⟨(t - 3) / (frameSize + 3), ?_⟩
    have hdiv := Nat.div_add_mod' (t - 3) (frameSize + 3)
    have hlt := Nat.mod_lt (t - 3) (show 0 < frameSize + 3 by omega)
    generalize (t - 3) / (frameSize + 3) = k at *
    generalize (t - 3) % (frameSize + 3) = c at *
    obtain rfl : t = beginCycle k + c := by unfold beginCycle; omega
    rcases Nat.lt_or_ge c (frameSize + 2) with h | h
    · rw [transfer_beats sound_init (beat_beginCycle _ _ k) c (by omega)] at hb
      rw [Option.some.inj hb, Nat.add_zero]
    · obtain rfl : c = frameSize + 2 := by omega
      rw [← Nat.add_assoc, transfer_ends sound_init (beat_beginCycle _ _ k)] at hb
      cases hb

theorem capture_backToBack :
    (runFrom init (backToBack tdata thr) (beginCycle 0 + frameSize + 1)).InPhase
      (.capture (frameSize + 1)) := by
  have hw := backToBack_three tdata thr
  obtain ⟨p', hp', hn⟩ := phase_step (backToBack tdata thr 3) (sound_runFrom sound_init _ _).inv hw
  have hp : (runFrom init (backToBack tdata thr) 4).InPhase (.capture 1) := by
    cases hn with
    | seize _ _ => exact hp'
    | waitPass _ h _ => omega
  have hc := capture_phases sound_init hp frameSize (by omega)
  rwa [show 4 + frameSize = beginCycle 0 + frameSize + 1 by unfold beginCycle; omega,
    show 1 + frameSize = frameSize + 1 by omega] at hc

theorem rest_backToBack :
    (runFrom init (backToBack tdata thr) (beginCycle 0 + frameSize + 2)).InPhase .rest := by
  have hr := rest_of_capture sound_init (capture_backToBack tdata thr)
  rwa [Nat.sub_self] at hr

theorem initDone_low_backToBack {u : ℕ} (hu : u < beginCycle 0 + frameSize + 2) :
    (runFrom init (backToBack tdata thr) u).initDone = false := by
  have hlow : (runFrom init (backToBack tdata thr) (beginCycle 0 + frameSize + 1)).initDone = false :=
    (capture_backToBack tdata thr).2.1
  exact initDone_low (by omega) hlow

/-- The transfers after the first are processed. -/
theorem lead_backToBack {k : ℕ} (hk : 1 ≤ k) :
    (runFrom init (backToBack tdata thr) (beginCycle k)).InPhase .lead := by
  refine inPhase_lead (sound_runFrom sound_init _ _) (initDone_mono ?_ (rest_backToBack _ _).2.1) (beat_beginCycle _ _ k)
  have : frameSize + 3 ≤ k * (frameSize + 3) := Nat.le_mul_of_pos_left _ hk
  unfold beginCycle
  omega

end

end System

end SuspiciousPackage
