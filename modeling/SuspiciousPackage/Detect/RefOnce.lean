import SuspiciousPackage.Sync.Run
import SuspiciousPackage.Detect.Unit

/-!
# Detect.RefOnce — the reference is captured once and never altered

For arbitrary inputs of `suspicious_object_detector`, not only those of the downsampler.  The invariant `Inv` ties the
state register to the `init_done` latch one edge behind the pulse; `captured_once` is the run lemma with the history of
`CAPTURE_REF`.
-/

namespace SuspiciousPackage

open Sync

namespace Detector

/-- The run from `s₀` on the inputs `ins`, in which `resetn` is an input. -/
def runFrom (s₀ : Detector) (ins : ℕ → In) : ℕ → Detector := run clock s₀ ins

/-- The state of the FSM as it shows in this cycle. -/
def currState (i : In) (s : Detector) : FsmState := (s.control.settle i.resetn).currState

def initDone (s : Detector) : Bool := s.control.initDone

def refMem (s : Detector) : ℕ → Bool := s.datapath.refFrameBuffer.mem

def frameStart (i : In) (s : Detector) : Bool := (s.controlOut i).frameStart

/-- A pass of `CAPTURE_REF` has ended before cycle `t`. -/
def PassEnded (r : ℕ → Detector) (t : ℕ) : Prop :=
  ∃ u < t, (r u).control.currState = .captureRef ∧ (r (u + 1)).control.currState ≠ .captureRef

/-- The latch against the state register. -/
structure Inv (s : Detector) : Prop where
  detecting : s.control.currState = .startFrame ∨ s.control.currState = .procFrame → s.initDone = true
  capturing : s.control.currState = .captureRef → s.initDone = false

section Step

variable {s : Detector} {i : In}

theorem control_clock (hi : i.resetn = true) : (s.clock i).control = s.control.clock (controlIn i) := by
  show (s.control.settle i.resetn).clock _ = _
  rw [hi, Control.settle_true]

theorem controlOut_of_resetn (hi : i.resetn = true) : s.controlOut i = s.control.comb (controlIn i) := by
  show (s.control.settle i.resetn).comb _ = _
  rw [hi, Control.settle_true]

theorem currState_clock (hi : i.resetn = true) :
    (s.clock i).control.currState = (s.control.comb (controlIn i)).nextState := by
  rw [control_clock hi]
  exact Control.clock_currState hi

theorem initDone_clock (hi : i.resetn = true) :
    (s.clock i).initDone = ((s.control.comb (controlIn i)).initDoneI || s.initDone) := by
  unfold initDone
  rw [control_clock hi]
  exact Control.clock_initDone hi

/-- A cycle with `resetn` low. -/
theorem inv_reset (hi : i.resetn = false) : (s.clock i).Inv ∧ (s.clock i).initDone = false := by
  have hs : (s.clock i).control = ⟨.reset, false⟩ := by
    show (s.control.settle i.resetn).clock (controlIn i) = _
    have hc : (controlIn i).resetn = false := hi
    simp [Control.clock, pulseDetector, hc]
  refine ⟨⟨?_, ?_⟩, ?_⟩
  · rw [hs]
    rintro (h | h) <;> cases h
  · rw [hs]
    intro h
    cases h
  · unfold initDone
    rw [hs]

theorem Inv.clock (hi : i.resetn = true) (h : s.Inv) : (s.clock i).Inv := by
  refine ⟨fun hs => ?_, fun hs => ?_⟩
  · rw [currState_clock hi] at hs
    rw [initDone_clock hi, Bool.or_eq_true]
    exact Or.inr ((Control.comb_nextState_detecting hs).elim id h.detecting)
  · rw [currState_clock hi] at hs
    obtain ⟨hno, hcap | ⟨-, hd⟩⟩ := Control.comb_nextState_captureRef hs
    · rw [initDone_clock hi, hno, h.capturing hcap, Bool.or_false]
    · rw [initDone_clock hi, hno, Bool.false_or]
      exact hd

/-- With a reference, the reference RAM is not written. -/
theorem refMem_clock (hi : i.resetn = true) (h : s.Inv) (hd : s.initDone = true) : (s.clock i).refMem = s.refMem := by
  have hw : (s.controlOut i).refWren = false := by
    by_contra hw
    rw [Bool.not_eq_false, controlOut_of_resetn hi] at hw
    have := h.capturing (Control.comb_refWren hw)
    rw [hd] at this
    cases this
  show ((s.datapath.settle (s.controlOut i).resetnDatapath).refFrameBuffer.clock _ _ (s.controlOut i).refWren
    _ _).mem = _
  rw [hw, Ram.clock_mem_of_not_wea]
  cases (s.controlOut i).resetnDatapath <;> rfl

end Step

section Run

variable {s₀ : Detector} {ins : ℕ → In}

/-- The history: `init_done` is high only after a pass of `CAPTURE_REF`. -/
theorem captured_once (h0 : s₀.Inv) (hd0 : s₀.initDone = false) {t : ℕ} (hr : ∀ u < t, (ins u).resetn = true) :
    (runFrom s₀ ins t).Inv ∧ ((runFrom s₀ ins t).initDone = true → PassEnded (runFrom s₀ ins) t) := by
  induction t with
  | zero => exact ⟨h0, fun h => absurd (hd0.symm.trans h) (by simp)⟩
  | succ t ih =>
    obtain ⟨hinv, hpass⟩ := ih fun u hu => hr u (by omega)
    have hi := hr t (Nat.lt_succ_self t)
    refine ⟨hinv.clock hi, fun hd => ?_⟩
    have hd' : ((runFrom s₀ ins t).clock (ins t)).initDone = true := hd
    rw [initDone_clock hi, Bool.or_eq_true] at hd'
    rcases hd' with hpulse | hd'
    · -- the pass ends with the pulse
      refine ⟨t, Nat.lt_succ_self t, (Control.comb_initDoneI.mp hpulse).1, ?_⟩
      show ((runFrom s₀ ins t).clock (ins t)).control.currState ≠ .captureRef
      rw [currState_clock hi, Control.comb_nextState_of_initDoneI hpulse]
      simp
    · obtain ⟨u, hu, hend⟩ := hpass hd'
      exact ⟨u, by omega, hend⟩

/-- From `init_done` on, the latch and the reference RAM are kept. -/
theorem reference_kept (h0 : s₀.Inv) (hd0 : s₀.initDone = false) {t t' : ℕ} (htt : t ≤ t')
    (hr : ∀ u < t', (ins u).resetn = true) (hd : (runFrom s₀ ins t).initDone = true) :
    (runFrom s₀ ins t').initDone = true ∧ (runFrom s₀ ins t').refMem = (runFrom s₀ ins t).refMem := by
  induction t', htt using Nat.le_induction with
  | base => exact ⟨hd, rfl⟩
  | succ t' _ ih =>
    obtain ⟨hd', hmem⟩ := ih fun u hu => hr u (by omega)
    have hi := hr t' (Nat.lt_succ_self t')
    obtain ⟨hinv, -⟩ := captured_once h0 hd0 (t := t') fun u hu => hr u (by omega)
    refine ⟨?_, (refMem_clock hi hinv hd').trans hmem⟩
    show ((runFrom s₀ ins t').clock (ins t')).initDone = true
    rw [initDone_clock hi, hd', Bool.or_true]

end Run

/-- **The reference is captured once and never altered.**  After a cycle with `resetn` low, on arbitrary inputs, in every
cycle `t` up to which `resetn` is high: `frame_start`, `PROC_FRAME` and `init_done` come after a pass of `CAPTURE_REF`;
`CAPTURE_REF` and `init_done` exclude each other; and once `init_done` is high, it stays high and the reference RAM
keeps its contents until `resetn` goes low. -/
theorem reference_captured_once (s : Detector) (i : In) (hi : i.resetn = false) (ins : ℕ → In) (t : ℕ)
    (hr : ∀ u ≤ t, (ins u).resetn = true) :
    ((runFrom (s.clock i) ins t).frameStart (ins t) = true ∨
        (runFrom (s.clock i) ins t).currState (ins t) = .procFrame ∨
        (runFrom (s.clock i) ins t).initDone = true → PassEnded (runFrom (s.clock i) ins) t) ∧
    ¬ ((runFrom (s.clock i) ins t).currState (ins t) = .captureRef ∧ (runFrom (s.clock i) ins t).initDone = true) ∧
    ((runFrom (s.clock i) ins t).initDone = true → ∀ t', t ≤ t' → (∀ u < t', (ins u).resetn = true) →
      (runFrom (s.clock i) ins t').initDone = true ∧
        (runFrom (s.clock i) ins t').refMem = (runFrom (s.clock i) ins t).refMem) := by
  obtain ⟨h0, hd0⟩ := inv_reset (s := s) hi
  obtain ⟨hinv, hpass⟩ := captured_once h0 hd0 fun u hu => hr u (Nat.le_of_lt hu)
  have hcur : (runFrom (s.clock i) ins t).currState (ins t) = (runFrom (s.clock i) ins t).control.currState := by
    unfold currState
    rw [hr t le_rfl, Control.settle_true]
  rw [hcur]
  refine ⟨?_, ?_, fun hd t' htt hr' => reference_kept h0 hd0 htt hr' hd⟩
  · rintro (hs | hs | hd)
    · rw [frameStart, controlOut_of_resetn (hr t le_rfl)] at hs
      exact hpass (hinv.detecting (Or.inl (Control.comb_frameStart.mp hs)))
    · exact hpass (hinv.detecting (Or.inr hs))
    · exact hpass hd
  · rintro ⟨hs, hd⟩
    rw [hinv.capturing hs] at hd
    cases hd

/-- Inputs that pass through `CAPTURE_REF` in one cycle: address `0` up to it, then the last address. -/
def shortPass (resetn : Bool) (t : ℕ) : In where
  resetn := resetn
  i2cConfigDone := true
  capturePixel := true
  captureAddr := if t = 3 then 76799 else 0
  captureWren := true
  detectionThres := 0
  staticThres := 0
  suspicionThres := 0
  startCapture := true

/-- After the short pass `init_done` is high in cycle `4`, and kept in `START_FRAME`. -/
theorem reference_captured_once_shortPass :
    PassEnded (runFrom (init.clock (shortPass false 0)) (shortPass true)) 4 ∧
    (runFrom (init.clock (shortPass false 0)) (shortPass true) 5).initDone = true ∧
    (runFrom (init.clock (shortPass false 0)) (shortPass true) 5).refMem =
      (runFrom (init.clock (shortPass false 0)) (shortPass true) 4).refMem := by
  have hd : (runFrom (init.clock (shortPass false 0)) (shortPass true) 4).initDone = true := rfl
  obtain ⟨hpass, -, hkept⟩ :=
    reference_captured_once init (shortPass false 0) rfl (shortPass true) 4 fun _ _ => rfl
  exact ⟨hpass (Or.inr (Or.inr hd)), hkept hd 5 (by omega) fun _ _ => rfl⟩

end Detector

end SuspiciousPackage
