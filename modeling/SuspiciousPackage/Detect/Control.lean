import SuspiciousPackage.Camera.Downsampler

/-!
# Detect.Control — `obj_det_control` and `pulse_detector`

`Control.comb` is the combinational block (state transition and outputs), `Control.clock` the state register
together with the `pulse_detector` that latches `init_done`.  The state register only ever holds the six named
states, so the `default` branch of the source has no counterpart.  `frame_count` is read by nothing and left out.
-/

namespace SuspiciousPackage

/-- `pulse_detector`: catches the pulse and outputs a level. -/
def pulseDetector (resetn pulseIn levelOut : Bool) : Bool :=
  if resetn = false then false else if pulseIn then true else levelOut

inductive FsmState
  | reset
  | waitStart
  | syncCapture
  | captureRef
  | startFrame
  | procFrame
deriving DecidableEq, Repr

/-- Registers of `obj_det_control`: the FSM state and the level of its `pulse_detector`. -/
structure Control where
  currState : FsmState
  initDone : Bool
deriving DecidableEq, Repr

namespace Control

structure In where
  resetn : Bool
  i2cConfigDone : Bool
  captureAddr : BitVec 17
  captureWren : Bool
  startCapture : Bool
deriving DecidableEq, Repr

/-- What the combinational block drives. -/
structure Out where
  nextState : FsmState
  initDoneI : Bool
  refWren : Bool
  refBramEnable : Bool
  diffWren : Bool
  diffBramEnable : Bool
  frameStart : Bool
  resetnDatapath : Bool
  refAddr : BitVec 17
  diffAddr : BitVec 17
deriving DecidableEq, Repr

/-- The default outputs: both BRAMs enabled, nothing written, addresses `0`. -/
@[simps] def Out.default (nextState : FsmState) : Out where
  nextState := nextState
  initDoneI := false
  refWren := false
  refBramEnable := true
  diffWren := false
  diffBramEnable := true
  frameStart := false
  resetnDatapath := true
  refAddr := 0
  diffAddr := 0

/-- State transition and output logic. -/
def comb (i : In) (c : Control) : Out :=
  match c.currState with
  | .reset =>
    if i.resetn = false ∨ i.i2cConfigDone = false then
      { Out.default .reset with resetnDatapath := false }
    else Out.default .waitStart
  | .waitStart =>
    if i.startCapture = false then
      { Out.default .waitStart with
        resetnDatapath := false, refBramEnable := false, diffBramEnable := false }
    else { Out.default .syncCapture with resetnDatapath := false }
  | .syncCapture =>
    if i.captureAddr.toNat ≠ 0 ∨ i.captureWren = false then Out.default .syncCapture
    else if c.initDone = false then Out.default .captureRef
    else Out.default .startFrame
  | .captureRef =>
    if i.captureAddr.toNat < frameSize - 1 then
      { Out.default .captureRef with
        refWren := i.captureWren, refBramEnable := i.captureWren, refAddr := i.captureAddr
        diffWren := i.captureWren, diffBramEnable := i.captureWren, diffAddr := i.captureAddr }
    else { Out.default .syncCapture with initDoneI := true }
  | .startFrame => { Out.default .procFrame with frameStart := true }
  | .procFrame =>
    if i.captureAddr.toNat < frameSize - 1 then
      { Out.default .procFrame with
        refAddr := i.captureAddr
        diffWren := i.captureWren, diffBramEnable := i.captureWren, diffAddr := i.captureAddr }
    else Out.default .syncCapture

/-- The values loaded by `resetn`. -/
def init : Control := ⟨.reset, false⟩

/-- `curr_state` is reset asynchronously, the `pulse_detector` at the edge. -/
def settle (resetn : Bool) (c : Control) : Control :=
  if resetn then c else { c with currState := .reset }

@[simp] theorem settle_true (c : Control) : c.settle true = c := rfl

/-- One edge, from the settled registers. -/
def clock (i : In) (c : Control) : Control where
  currState := if i.resetn then (c.comb i).nextState else .reset
  initDone := pulseDetector i.resetn (c.comb i).initDoneI c.initDone

theorem clock_initDone {i : In} {c : Control} (hr : i.resetn = true) :
    (c.clock i).initDone = ((c.comb i).initDoneI || c.initDone) := by
  simp [clock, pulseDetector, hr]

theorem clock_currState {i : In} {c : Control} (hr : i.resetn = true) :
    (c.clock i).currState = (c.comb i).nextState := by
  simp [clock, hr]

/-- The pulse is given in `CAPTURE_REF` only. -/
theorem comb_initDoneI {i : In} {c : Control} :
    (c.comb i).initDoneI = true ↔ c.currState = .captureRef ∧ frameSize - 1 ≤ i.captureAddr.toNat := by
  cases hs : c.currState <;> simp only [comb, hs] <;> (try split_ifs) <;> simp <;> omega

theorem comb_frameStart {i : In} {c : Control} :
    (c.comb i).frameStart = true ↔ c.currState = .startFrame := by
  cases hs : c.currState <;> simp only [comb, hs] <;> (try split_ifs) <;> simp

/-- The datapath is reset before the start bit only. -/
theorem comb_resetnDatapath {i : In} {c : Control} (h : (c.comb i).resetnDatapath = false) :
    c.currState = .reset ∨ c.currState = .waitStart := by
  revert h
  cases hs : c.currState <;> simp only [comb, hs] <;> (try split_ifs) <;> simp

/-- The reference RAM is written in `CAPTURE_REF` only. -/
theorem comb_refWren {i : In} {c : Control} (h : (c.comb i).refWren = true) :
    c.currState = .captureRef := by
  revert h
  cases hs : c.currState <;> simp only [comb, hs] <;> (try split_ifs) <;> simp

/-- The pulse comes with the way back to `SYNC_CAPTURE`. -/
theorem comb_nextState_of_initDoneI {i : In} {c : Control} (h : (c.comb i).initDoneI = true) :
    (c.comb i).nextState = .syncCapture := by
  obtain ⟨hs, ha⟩ := comb_initDoneI.mp h
  simp only [comb, hs, if_neg (Nat.not_lt.mpr ha)]
  rfl

/-- `CAPTURE_REF` is entered from `SYNC_CAPTURE` without a reference, and kept without the pulse. -/
theorem comb_nextState_captureRef {i : In} {c : Control} (h : (c.comb i).nextState = .captureRef) :
    (c.comb i).initDoneI = false ∧ (c.currState = .captureRef ∨ c.currState = .syncCapture ∧ c.initDone = false) := by
  revert h
  cases hs : c.currState <;> simp only [comb, hs] <;> (try split_ifs) <;> simp
  assumption

/-- `RESET` and `WAIT_START` are not entered again without a reset. -/
theorem comb_nextState_off {i : In} {c : Control}
    (h : (c.comb i).nextState = .reset ∨ (c.comb i).nextState = .waitStart) :
    (c.comb i).initDoneI = false ∧ (c.currState = .reset ∨ c.currState = .waitStart) := by
  revert h
  cases hs : c.currState <;> simp only [comb, hs] <;> (try split_ifs) <;> simp

/-- `START_FRAME` and `PROC_FRAME` are entered with a reference, or from one another. -/
theorem comb_nextState_detecting {i : In} {c : Control}
    (h : (c.comb i).nextState = .startFrame ∨ (c.comb i).nextState = .procFrame) :
    c.initDone = true ∨ c.currState = .startFrame ∨ c.currState = .procFrame := by
  revert h
  cases hs : c.currState <;> simp only [comb, hs] <;> (try split_ifs) <;> simp_all

end Control

end SuspiciousPackage
