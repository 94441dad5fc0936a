import SuspiciousPackage.Detect.Counters

/-!
# Detect.ChangedPixels — which pixels `diff_cnt` counts

Pixel `a` is compared in cycle `a + 4` of its transfer, and `diff_cnt` is enabled in the cycles `2` to `frameSize`.  The
first two of these count reference pixel `0` against nothing, and the last three pixels are compared too late
(`diffCnt_counts_iff`).  Both can happen at once and leave the total right.
-/

namespace SuspiciousPackage

open Sync Finset

namespace System

variable {s₀ : System} {ins : ℕ → In} {t t' : ℕ}

/-- Pixel `a` of the transfer from cycle `t` on is presented in beat `a + 2` and compared two registers later. -/
def comparedAt (t a : ℕ) : ℕ := t + (a + 2) + 2

/-- **`diff_cnt` counts the changed pixels** of the transfer from cycle `t` on: in the `frame_start` cycle `t'` their
number is right, each of them was counted, in the one cycle that compares it, and no other cycle of the frame
counted. -/
structure CountsChanged (ins : ℕ → In) (r : ℕ → System) (t t' : ℕ) : Prop where
  total : (r t').datapath.diffCnt.toNat = changed (r t).refMem (frameAt ins r t) (range frameSize)
  once : ∀ a < frameSize, frameAt ins r t a ≠ (r t).refMem a →
    comparedAt t a < t' ∧ Increments diffPixel ins r (comparedAt t a)
  only : ∀ z, t + 1 < z → z < t' → Increments diffPixel ins r z →
    ∃ a < frameSize, frameAt ins r t a ≠ (r t).refMem a ∧ z = comparedAt t a

section Lead

variable (h₀ : AfterReset s₀) (hp : (runFrom s₀ ins t).InPhase .lead)
include h₀ hp

/-- **What is counted** in the cycles of the frame that enable the counter. -/
theorem increments_diff_iff {c : ℕ} (h2 : 2 ≤ c) (hc : c ≤ frameSize) :
    Increments diffPixel ins (runFrom s₀ ins) (t + c) ↔
      diffBit (runFrom s₀ ins t).refMem (frameAt ins (runFrom s₀ ins) t) c = true := by
  have hi := (sound_runFrom h₀.sound ins (t + c)).inv
  have hproc : (runFrom s₀ ins (t + c)).InPhase (.proc c) := by
    have := (proc_phases h₀.sound hp).2 (c - 2) (by omega)
    rwa [show t + 2 + (c - 2) = t + c by omega, show 2 + (c - 2) = c by omega] at this
  have hS := inFrame_of_lead h₀ hp h2 (show c ≤ frameSize + 1 by omega)
  have hpix : (runFrom s₀ ins (t + c)).diffPixel (ins (t + c)) =
      diffBit (runFrom s₀ ins t).refMem (frameAt ins (runFrom s₀ ins) t) c := by
    rw [diffPixel_proc hi hproc hc, hS.refDout, hS.currPixel]
    rfl
  have hw : ((runFrom s₀ ins (t + c)).controlOut (ins (t + c))).diffWren = true := by
    rw [controlOut_proc hi hproc hc]
    rfl
  unfold Increments
  rw [hpix]
  exact and_iff_right hw

/-- Pixel `a` is counted if it is changed, as long as the counter is enabled. -/
theorem increments_comparedAt {a : ℕ} (ha : a < frameSize - 3) :
    Increments diffPixel ins (runFrom s₀ ins) (comparedAt t a) ↔
      frameAt ins (runFrom s₀ ins) t a ≠ (runFrom s₀ ins t).refMem a := by
  rw [show comparedAt t a = t + (a + 4) by unfold comparedAt; omega, increments_diff_iff h₀ hp (by omega) (by omega),
    diffBit_add_four, Bool.xor_iff_ne]
  exact ne_comm

omit h₀ in
theorem lastProc_of_lead (h : s₀.Sound) : LastProc (runFrom s₀ ins) (t + frameSize + 1) := by
  have hfs := frameSize_eq
  have hlast := (proc_phases h hp).2 (frameSize - 1) le_rfl
  rw [show t + 2 + (frameSize - 1) = t + frameSize + 1 by omega, show 2 + (frameSize - 1) = frameSize + 1 by omega] at hlast
  refine ⟨hlast.1, fun hs => ?_⟩
  obtain ⟨p', hp', hn⟩ := phase_step (ins (t + frameSize + 1)) (sound_runFrom h ins _).inv hlast
  cases hn with
  | procBeat c hc => exact absurd hc (by omega)
  | processed => exact absurd (hp'.1.symm.trans hs) (by simp)

/-- The next `frame_start` comes after the frame. -/
theorem lt_of_next_fires (ht : Next (Fires ins (runFrom s₀ ins)) (t + 1) t') : t + frameSize + 1 < t' := by
  have hfs := frameSize_eq
  by_contra hle
  have hlt := ht.lt
  have hproc := (proc_phases h₀.sound hp).2 (t' - (t + 2)) (by omega)
  rw [show t + 2 + (t' - (t + 2)) = t' by omega] at hproc
  exact absurd (hproc.1.symm.trans (fires_iff.mp ht.event)) (by simp)

/-- Nothing is counted between the frame and the next `frame_start`. -/
theorem not_increments_of_frameSize_lt (ht : Next (Fires ins (runFrom s₀ ins)) (t + 1) t') {z : ℕ}
    (hz : t + frameSize < z) (hz' : z < t') : ¬ Increments diffPixel ins (runFrom s₀ ins) z :=
  not_increments_after_proc h₀ (lastProc_of_lead hp h₀.sound) hz fun v h1 h2 => ht.none v (by omega) (by omega)

end Lead

/-- **When `diff_cnt` counts the changed pixels.**  From reset, for the frame transferred from cycle `t` on, after
`init_done`, up to the next `frame_start`: iff pixel `0` of the reference is white and none of the last three pixels
differs from the reference. -/
theorem diffCnt_counts_iff (s : System) (i : In) (ins : ℕ → In) (r : ℕ → System)
    (hr : r = runFrom (s.clock false i) ins) (t t' : ℕ) (hb : Begins r t) (hd : (r t).initDone = true)
    (ht : Next (Fires ins r) (t + 1) t') :
    CountsChanged ins r t t' ↔
      (r t).refMem 0 = false ∧ ∀ a, frameSize - 3 ≤ a → a < frameSize → frameAt ins r t a = (r t).refMem a := by
  subst hr
  have h₀ := afterReset s i
  have hfs := frameSize_eq
  have hp := inPhase_lead (sound_runFrom h₀.sound ins t) hd ((begins_iff h₀.sound h₀.idle).mp hb)
  have hlt := lt_of_next_fires h₀ hp ht
  constructor
  · rintro ⟨-, honce, honly⟩
    refine ⟨?_, fun a h1 h2 => ?_⟩
    · -- a black pixel is counted in cycle `2`, which compares no pixel
      by_contra h0
      rw [Bool.not_eq_false] at h0
      have hinc := (increments_diff_iff h₀ hp le_rfl (show 2 ≤ frameSize by omega)).mpr
        ((diffBit_of_lt (by omega)).trans h0)
      obtain ⟨a, -, -, ha⟩ := honly (t + 2) (by omega) (by omega) hinc
      unfold comparedAt at ha
      omega
    · -- these pixels are compared after the frame
      by_contra hne
      obtain ⟨hlt', hinc⟩ := honce a h2 hne
      refine not_increments_of_frameSize_lt h₀ hp ht ?_ hlt' hinc
      unfold comparedAt
      omega
  · rintro ⟨h0, hlast⟩
    refine ⟨?_, fun a ha hne => ?_, fun z h1 h2 hinc => ?_⟩
    · have hnone : changed (runFrom (s.clock false i) ins t).refMem (frameAt ins (runFrom (s.clock false i) ins) t)
          (Ico (frameSize - 3) frameSize) = 0 := by
        refine changed_eq_zero fun a ha => ?_
        rw [mem_Ico] at ha
        exact hlast a ha.1 ha.2
      rw [diffCnt_next h₀ hb hd ht, changed_range_add (Nat.sub_le frameSize 3), hnone, h0, Bool.toNat_false]
      omega
    · have hearly : a < frameSize - 3 := by
        by_contra hge
        exact hne (hlast a (by omega) ha)
      refine ⟨?_, (increments_comparedAt h₀ hp hearly).mpr hne⟩
      unfold comparedAt
      omega
    · obtain ⟨c, rfl⟩ := Nat.exists_eq_add_of_lt (show t < z by omega)
      have hc : c + 1 ≤ frameSize := by
        by_contra hgt
        exact not_increments_of_frameSize_lt h₀ hp ht (by omega) h2 hinc
      have hfour : 4 ≤ c + 1 := by
        by_contra hlt4
        have hbit := (increments_diff_iff h₀ hp (show 2 ≤ c + 1 by omega) hc).mp hinc
        rw [diffBit_of_lt (by omega), h0] at hbit
        cases hbit
      have hz : t + c + 1 = comparedAt t (c - 3) := by
        unfold comparedAt
        omega
      rw [hz] at hinc
      exact ⟨c - 3, by omega, (increments_comparedAt h₀ hp (by omega)).mp hinc, hz⟩

/-- White frames back to back. -/
theorem diffCnt_counts_white :
    CountsChanged whiteFrames (runFrom init whiteFrames) (beginCycle 1) (beginCycle 2 + 1) := by
  have href : (runFrom init whiteFrames (beginCycle 1)).refMem = fun _ => false :=
    (refMem_stillFrames (fun _ => false) _ le_rfl).trans storedFrame_false
  refine (diffCnt_counts_iff init (whiteFrames 0) whiteFrames (runFrom init whiteFrames) rfl (beginCycle 1) _
    (begins_stillFrames _ _ 1) (initDone_stillFrames _ _ le_rfl) (next_fires_stillFrames _ _ le_rfl)).mpr ?_
  rw [href]
  exact ⟨rfl, fun a _ ha => frameAt_stillFrames _ _ 1 ha⟩

/-- On black frames back to back a single pixel differs from the reference, and `2` are counted. -/
theorem diffCnt_black :
    ¬ CountsChanged blackFrames (runFrom init blackFrames) (beginCycle 1) (beginCycle 2 + 1) := by
  rw [blackFrames_eq]
  rintro ⟨htotal, -, -⟩
  rw [refMem_stillFrames _ _ le_rfl] at htotal
  have hcnt : 2 ≤ (runFrom init (stillFrames (fun _ => true) ⟨0, 0, 1⟩) (beginCycle 2 + 1)).datapath.diffCnt.toNat :=
    (diffCnt_stillFrames _ rfl (le_refl 1)).1
  exact absurd htotal ((changed_stillFrames _ _ 1).trans_lt hcnt).ne'

end System

end SuspiciousPackage
