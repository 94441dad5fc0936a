import SuspiciousPackage.Detect.NoFalseAlarm
import SuspiciousPackage.Detect.PixelCounts

/-!
# Detect.AlarmLaw — the alarm as a function of the frames

What the whole pipeline computes from the frames `F 0, F 1, …`, the reference first: a frame is suspicious when it differs
from the reference in enough pixels and shares enough of them with the frame before, and the alarm is up while the last
frames decided upon, at least `suspicion_thres` in a row, are (`alarm_law`).
-/

namespace SuspiciousPackage

open Sync Finset

section Frames

variable (thr : Thresholds) (F : ℕ → ℕ → Bool)

/-- The pixels counted as changed in frame `k`. -/
def changedPixels (k : ℕ) : ℕ := 2 * (F 0 0).toNat + changed (F 0) (F k) (range (frameSize - 3))

/-- The pixels counted as changed in frame `k` and in the one before. -/
def lastingPixels (k : ℕ) : ℕ := 4 * (F 0 0).toNat + changedTwice (F 0) (F (k - 1)) (F k) (range (frameSize - 5))

/-- The reference and the first frame after it never are. -/
def Suspicious (k : ℕ) : Prop :=
  2 ≤ k ∧ thr.object.toNat < changedPixels F k ∧ thr.static.toNat < lastingPixels F k

instance (k : ℕ) : Decidable (Suspicious thr F k) := inferInstanceAs (Decidable (_ ∧ _))

/-- The number of suspicious frames in a row up to frame `k`. -/
def suspiciousRun : ℕ → ℕ
  | 0 => 0
  | k + 1 => if Suspicious thr F (k + 1) then suspiciousRun k + 1 else 0

variable {thr F}

theorem suspiciousRun_le (k : ℕ) : suspiciousRun thr F k ≤ k - 1 := by
  induction k with
  | zero => exact le_rfl
  | succ k ih =>
    unfold suspiciousRun
    split_ifs with h
    · have h2 := h.1
      omega
    · exact Nat.zero_le _

theorem storedFrame_of_lt {Q : ℕ → Bool} {a : ℕ} (h : a < frameSize - 1) : storedFrame Q a = Q a := if_pos h

/-- The pixel the reference lacks is not compared. -/
theorem changed_storedFrame {R Q : ℕ → Bool} :
    changed (storedFrame R) Q (range (frameSize - 3)) = changed R Q (range (frameSize - 3)) := by
  refine congrArg card (filter_congr fun a ha => ?_)
  rw [mem_range] at ha
  rw [storedFrame_of_lt (by omega)]

theorem changedTwice_storedFrame {R P Q : ℕ → Bool} :
    changedTwice (storedFrame R) P Q (range (frameSize - 5)) = changedTwice R P Q (range (frameSize - 5)) := by
  refine congrArg card (filter_congr fun a ha => ?_)
  rw [mem_range] at ha
  rw [storedFrame_of_lt (by omega)]

theorem storedFrame_zero {Q : ℕ → Bool} : storedFrame Q 0 = Q 0 :=
  storedFrame_of_lt (by rw [frameSize_eq]; omega)

theorem diffCnt_afterFrames (k : ℕ) : (Tally.afterFrames thr F (k + 1)).diffCnt = changedPixels F (k + 1) := by
  show ((Tally.afterFrames thr F k).process thr (F (k + 1))).diffCnt = _
  rw [diffCnt_process_eq, Tally.afterFrames_ref, storedFrame_zero, changed_storedFrame]
  rfl

theorem matchCnt_afterFrames (k : ℕ) : (Tally.afterFrames thr F (k + 2)).matchCnt = lastingPixels F (k + 2) := by
  show (((Tally.afterFrames thr F k).process thr (F (k + 1))).process thr (F (k + 2))).matchCnt = _
  rw [matchCnt_process_process, Tally.afterFrames_ref, storedFrame_zero, changedTwice_storedFrame]
  rfl

/-- With a black pixel `0` of the reference some pixels are always counted. -/
theorem counted_of_black (h : F 0 0 = true) (k : ℕ) : 0 < changedPixels F k ∧ 0 < lastingPixels F k := by
  have hone : true.toNat = 1 := rfl
  unfold changedPixels lastingPixels
  rw [h, hone]
  omega

/-- The detector's match is the suspicion of the frame. -/
theorem frameMatch_afterFrames (k : ℕ) : (Tally.afterFrames thr F k).frameMatch thr ↔ Suspicious thr F k := by
  unfold Tally.frameMatch Suspicious
  rcases k with _ | _ | k
  · exact ⟨fun h => absurd h.1 (Nat.not_lt_zero _), fun h => absurd h.1 (by omega)⟩
  · rw [matchCnt_one]
    exact ⟨fun h => absurd h.2 (Nat.not_lt_zero _), fun h => absurd h.1 (by omega)⟩
  · rw [diffCnt_afterFrames, matchCnt_afterFrames]
    exact ⟨fun h => ⟨by omega, h⟩, fun h => h.2⟩

/-- **The level after the decision on frame `k`.** -/
theorem suspicion_afterFrames (hT : thr.suspicion.toNat ≤ 511) (k : ℕ) :
    (Tally.afterFrames thr F (k + 1)).suspicion.toNat = min (suspiciousRun thr F k) thr.suspicion.toNat := by
  induction k with
  | zero =>
    have hno : ¬ (Tally.afterFrames thr F 0).frameMatch thr := fun h => absurd h.1 (Nat.not_lt_zero _)
    rw [Tally.afterFrames_suspicion, Tally.nextSuspicion, if_neg hno]
    exact (Nat.zero_min _).symm
  | succ k ih =>
    rw [Tally.afterFrames_suspicion, Tally.nextSuspicion]
    unfold suspiciousRun
    by_cases h : Suspicious thr F (k + 1)
    · rw [if_pos ((frameMatch_afterFrames _).mpr h), if_pos h]
      split_ifs with hlt
      · rw [BitVec.toNat_add, ih]
        rw [ih] at hlt
        show (_ + 1) % 512 = _
        omega
      · rw [ih] at hlt ⊢
        omega
    · rw [if_neg fun hm => h ((frameMatch_afterFrames _).mp hm), if_neg h]
      exact (Nat.zero_min _).symm

end Frames

namespace System

section Run

variable {ins : ℕ → In} {thr : Thresholds} {F : ℕ → ℕ → Bool}

/-- The level in every cycle is the one of the frame model. -/
theorem suspicion_run (hidle : StartsIdle ins (runFrom init ins)) (hthr : ∀ t, thresholds (ins t) = thr)
    (hF : Delivers ins (runFrom init ins) F) (t : ℕ) : (runFrom init ins t).datapath.suspicion =
      (Tally.afterFrames thr F (Nat.count (Fires ins (runFrom init ins)) t)).suspicion := by
  obtain ⟨-, p, hp⟩ := sound_runFrom sound_init ins t
  have hfol := followed hidle hthr hF t p hp
  have hzero : (runFrom init ins t).initDone = false → Nat.count (Fires ins (runFrom init ins)) t = 0 →
      (runFrom init ins t).datapath.suspicion =
        (Tally.afterFrames thr F (Nat.count (Fires ins (runFrom init ins)) t)).suspicion := fun hd hcount => by
    rw [hcount]
    exact (cleared_of_not_initDone ⟨rfl, rfl⟩ hd).2
  cases p with
  | off => exact hzero hp.2 hfol.2.2
  | wait b => exact hzero hp.2.1 hfol.2.2.2
  | capture c =>
    obtain ⟨-, -, -, -, -, -, hcount⟩ := hfol
    exact hzero hp.2.1 hcount
  | rest => exact hfol.2.2.suspicion
  | lead => exact hfol.2.2.suspicion
  | start =>
    obtain ⟨-, -, -, -, -, hS⟩ := hfol
    exact hS.suspicion
  | proc c =>
    obtain ⟨-, k, -, -, hcount, -, -, hS⟩ := hfol
    rw [hcount]
    exact hS.suspicion

/-- Between transfers `diff_cnt` is the one of the frame model. -/
theorem diffCnt_rest (hidle : StartsIdle ins (runFrom init ins)) (hthr : ∀ t, thresholds (ins t) = thr)
    (hF : Delivers ins (runFrom init ins) F) {t : ℕ} (hb : (runFrom init ins t).beat = none) :
    (runFrom init ins t).datapath.diffCnt.toNat =
      (Tally.afterFrames thr F (Nat.count (Fires ins (runFrom init ins)) t)).diffCnt := by
  obtain ⟨-, p, hp⟩ := sound_runFrom sound_init ins t
  have hfol := followed hidle hthr hF t p hp
  have hzero : (runFrom init ins t).initDone = false → Nat.count (Fires ins (runFrom init ins)) t = 0 →
      (runFrom init ins t).datapath.diffCnt.toNat =
        (Tally.afterFrames thr F (Nat.count (Fires ins (runFrom init ins)) t)).diffCnt := fun hd hcount => by
    rw [hcount, (cleared_of_not_initDone ⟨rfl, rfl⟩ hd).1]
    rfl
  cases p with
  | off => exact hzero hp.2 hfol.2.2
  | wait b => exact hzero hp.2.1 hfol.2.2.2
  | capture c => exact absurd (hb.symm.trans hp.2.2.1) (by simp)
  | rest => exact hfol.2.2.diffCnt
  | lead => exact absurd (hb.symm.trans hp.2.2) (by simp)
  | start => exact absurd (hb.symm.trans hp.2.2) (by simp)
  | proc c => exact absurd (hb.symm.trans hp.2.2.1) (by simp)

end Run

/-- **When the alarm is up.**  On the frames `F`, with fixed thresholds the level can count to, `object_susp` is high in
exactly the cycles in which the last frames decided upon, at least `suspicion_thres` of them in a row, are suspicious; so
never before the decision on frame `suspicion_thres + 1`.  Between transfers `object_detected` says whether enough pixels
of the last frame processed have changed. -/
theorem alarm_law (ins : ℕ → In) (thr : Thresholds) (F : ℕ → ℕ → Bool) (hidle : StartsIdle ins (runFrom init ins))
    (hthr : ∀ t, thresholds (ins t) = thr) (hF : Delivers ins (runFrom init ins) F) (hT : thr.suspicion.toNat ≤ 511)
    (t : ℕ) :
    ((runFrom init ins t).objectSusp (ins t) = true ↔
      thr.suspicion.toNat ≤ suspiciousRun thr F (Nat.count (Fires ins (runFrom init ins)) t - 1)) ∧
    (0 < thr.suspicion.toNat → (runFrom init ins t).objectSusp (ins t) = true →
      thr.suspicion.toNat + 2 ≤ Nat.count (Fires ins (runFrom init ins)) t) ∧
    ((runFrom init ins t).beat = none → ((runFrom init ins t).objectDetected (ins t) = true ↔
      0 < Nat.count (Fires ins (runFrom init ins)) t ∧
        thr.object.toNat < changedPixels F (Nat.count (Fires ins (runFrom init ins)) t))) := by
  have hthr' : (ins t).suspicionThres = thr.suspicion ∧ (ins t).detectionThres = thr.object := by
    rw [← hthr t]
    exact ⟨rfl, rfl⟩
  have hsusp : (runFrom init ins t).objectSusp (ins t) = true ↔
      thr.suspicion.toNat ≤ suspiciousRun thr F (Nat.count (Fires ins (runFrom init ins)) t - 1) := by
    rw [objectSusp_eq, hthr'.1, decide_eq_true_eq, suspicion_run hidle hthr hF]
    generalize Nat.count (Fires ins (runFrom init ins)) t = n
    cases n with
    | zero =>
      show 0 = _ ↔ _ ≤ 0
      omega
    | succ n =>
      rw [suspicion_afterFrames hT, Nat.add_sub_cancel]
      omega
  refine ⟨hsusp, fun hpos h => ?_, fun hb => ?_⟩
  · have hle := (hsusp.mp h).trans (suspiciousRun_le _)
    omega
  · rw [objectDetected_eq, hthr'.2, decide_eq_true_eq, diffCnt_rest hidle hthr hF hb]
    generalize Nat.count (Fires ins (runFrom init ins)) t = n
    cases n with
    | zero => exact ⟨fun h => absurd h (Nat.not_lt_zero _), fun h => absurd h.1 (lt_irrefl _)⟩
    | succ n =>
      rw [diffCnt_afterFrames]
      exact ⟨fun h => ⟨Nat.succ_pos n, h⟩, fun h => h.2⟩

theorem kth_fires_stillFrames (F : ℕ → Bool) (thr : Thresholds) (k : ℕ) :
    Kth (Fires (stillFrames F thr) (runFrom init (stillFrames F thr))) k (beginCycle (k + 1) + 1) := by
  induction k with
  | zero =>
    have hfires : Fires (stillFrames F thr) (runFrom init (stillFrames F thr)) (beginCycle 1 + 1) :=
      (fires_succ_iff afterReset_init (initDone_stillFrames F thr le_rfl)).mpr (begins_stillFrames F thr 1)
    refine ⟨hfires, Nat.count_iff_forall_not.mpr fun u hu hf => ?_⟩
    rcases Nat.lt_succ_iff_lt_or_eq.mp hu with hlt | rfl
    · exact not_fires_stillFrames F thr hlt hf
    · exact absurd ((fires_iff.mp hf).symm.trans (lead_backToBack _ thr le_rfl).1) (by decide)
  | succ k ih =>
    have hnext := next_fires_stillFrames F thr (Nat.succ_pos k)
    exact ih.next hnext.event hnext.lt hnext.none

/-- On black frames at the lowest thresholds the alarm is up after the decision on the second one. -/
theorem alarm_law_black : (runFrom init blackFrames (beginCycle 3 + 1 + 1)).objectSusp
    (blackFrames (beginCycle 3 + 1 + 1)) = true := by
  rw [blackFrames_eq]
  have hkth := kth_fires_stillFrames (fun _ => true) ⟨0, 0, 1⟩ 2
  have hcount : Nat.count (Fires (stillFrames (fun _ => true) ⟨0, 0, 1⟩)
      (runFrom init (stillFrames (fun _ => true) ⟨0, 0, 1⟩))) (beginCycle 3 + 1 + 1) = 3 := by
    rw [Nat.count_succ_eq_succ_count_iff.mpr hkth.1, hkth.2]
  refine (alarm_law _ ⟨0, 0, 1⟩ (fun _ _ => true) (startsIdle_of_one (fun _ => rfl) ⟨rfl, rfl⟩) (fun _ => rfl)
    (delivers_stillFrames _ _) (by decide) _).1.mpr ?_
  rw [hcount]
  have htwo : Suspicious ⟨0, 0, 1⟩ (fun _ _ => true) 2 := by
    have hpos := counted_of_black (F := fun _ _ => true) rfl 2
    exact ⟨le_rfl, hpos⟩
  show 1 ≤ if Suspicious ⟨0, 0, 1⟩ (fun _ _ => true) 2 then _ else _
  rw [if_pos htwo]
  exact Nat.succ_le_succ (Nat.zero_le _)

end System

end SuspiciousPackage
