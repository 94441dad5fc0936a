import SuspiciousPackage.Detect.System

/-!
# Detect.Phase — the downsampler and the FSM move in step

The abstract control model: nine phases of the pair downsampler/FSM, with the transitions `Phase.Next` between them.
`phase_step` says what a clock edge does to a state in a phase; every later invariant is derived from it.  The FSM
outputs are a function of the phase (`controlOut_*`).
-/

namespace SuspiciousPackage

open Sync

/-- A joint phase of `frame_downsampler` and `obj_det_control`. -/
inductive Phase
  /-- `RESET` or `WAIT_START`. -/
  | off
  /-- `SYNC_CAPTURE` without a reference, the downsampler at the given position. -/
  | wait (b : Option ℕ)
  /-- `CAPTURE_REF` in cycle `c` of a transfer. -/
  | capture (c : ℕ)
  /-- `SYNC_CAPTURE` with a reference, no transfer. -/
  | rest
  /-- `SYNC_CAPTURE` with a reference, cycle `0` of a transfer. -/
  | lead
  /-- `START_FRAME` in cycle `1` of a transfer. -/
  | start
  /-- `PROC_FRAME` in cycle `c` of a transfer. -/
  | proc (c : ℕ)
deriving DecidableEq, Repr

namespace Phase

/-- The moves of the two machines. -/
inductive Next : Phase → Phase → Prop
  | off : Next off off
  | accept (b : Option ℕ) : Next off (wait b)
  | waitIdle : Next (wait none) (wait none)
  | waitBegin : Next (wait none) (wait (some 0))
  | seize (c : ℕ) (h : c ≤ 2) : Next (wait (some c)) (capture (c + 1))
  | waitPass (c : ℕ) (h : 2 < c) (h' : c ≤ frameSize) : Next (wait (some c)) (wait (some (c + 1)))
  | waitEnd : Next (wait (some (frameSize + 1))) (wait none)
  | capture (c : ℕ) (h : c ≤ frameSize) : Next (capture c) (capture (c + 1))
  | captured : Next (.capture (frameSize + 1)) rest
  | rest : Next rest rest
  | begin : Next rest lead
  | start : Next lead start
  | proc : Next start (proc 2)
  | procBeat (c : ℕ) (h : c ≤ frameSize) : Next (.proc c) (.proc (c + 1))
  | processed : Next (.proc (frameSize + 1)) rest

end Phase

namespace System

/-- The state `s` is in phase `p`. -/
def InPhase (s : System) : Phase → Prop
  | .off => (s.currState = .reset ∨ s.currState = .waitStart) ∧ s.initDone = false
  | .wait b => s.currState = .syncCapture ∧ s.initDone = false ∧ s.beat = b
  | .capture c => s.currState = .captureRef ∧ s.initDone = false ∧ s.beat = some c ∧ 1 ≤ c
  | .rest => s.currState = .syncCapture ∧ s.initDone = true ∧ s.beat = none
  | .lead => s.currState = .syncCapture ∧ s.initDone = true ∧ s.beat = some 0
  | .start => s.currState = .startFrame ∧ s.initDone = true ∧ s.beat = some 1
  | .proc c => s.currState = .procFrame ∧ s.initDone = true ∧ s.beat = some c ∧ 2 ≤ c

/-! ## FSM outputs in each phase -/

section Outputs

variable {s : System} {i : In}

theorem objDetAddr_of_beat (h : s.downsampler.Inv) {c : ℕ} (hb : s.beat = some c) :
    s.downsampler.objDetAddr.toNat = c - 2 := Downsampler.objDetAddr_eq h hb

theorem objDetWren_eq_beat (h : s.downsampler.Inv) : s.downsampler.objDetWren = s.beat.isSome :=
  Downsampler.objDetWren_eq h

theorem objDetWren_iff (h : s.downsampler.Inv) : s.downsampler.objDetWren = true ↔ ∃ c, s.beat = some c := by
  rw [objDetWren_eq_beat h, Option.isSome_iff_exists]

/-- The outputs of `CAPTURE_REF` when it stores the presented pixel. -/
def captureOut (s : System) : Control.Out :=
  { Control.Out.default .captureRef with
    refWren := true, refAddr := s.downsampler.objDetAddr
    diffWren := true, diffAddr := s.downsampler.objDetAddr }

/-- The outputs of `PROC_FRAME` when it processes the presented pixel. -/
def procOut (s : System) : Control.Out :=
  { Control.Out.default .procFrame with
    refAddr := s.downsampler.objDetAddr
    diffWren := true, diffAddr := s.downsampler.objDetAddr }

theorem controlOut_eq : s.controlOut i = s.detector.control.comb (Detector.controlIn (s.detectorIn i)) := rfl

/-- Before the start bit is accepted nothing is written and the FSM can only move on to `SYNC_CAPTURE`. -/
theorem controlOut_off (hp : s.InPhase .off) :
    (s.controlOut i).refWren = false ∧ (s.controlOut i).diffWren = false ∧
      (s.controlOut i).frameStart = false ∧ (s.controlOut i).initDoneI = false ∧
      ((s.controlOut i).nextState = .reset ∨ (s.controlOut i).nextState = .waitStart ∨
        (s.controlOut i).nextState = .syncCapture) := by
  obtain ⟨hs, -⟩ := hp
  simp only [currState] at hs
  rcases hs with hs | hs <;> simp only [controlOut_eq, Control.comb, hs] <;> split_ifs <;> simp

theorem controlOut_wait_none (h : s.downsampler.Inv) (hp : s.InPhase (.wait none)) :
    s.controlOut i = Control.Out.default .syncCapture := by
  obtain ⟨hs, -, hb⟩ := hp
  have hw := objDetWren_eq_beat h
  rw [hb] at hw
  simp only [currState] at hs
  simp only [controlOut_eq, Control.comb, hs]
  exact if_pos (Or.inr hw)

/-- The FSM seizes a transfer whose address is still `0`. -/
theorem controlOut_wait_low (h : s.downsampler.Inv) {c : ℕ} (hp : s.InPhase (.wait (some c)))
    (hc : c ≤ 2) : s.controlOut i = Control.Out.default .captureRef := by
  obtain ⟨hs, hd, hb⟩ := hp
  have hw := objDetWren_eq_beat h
  have ha := objDetAddr_of_beat h hb
  simp only [currState, initDone] at hs hd
  simp only [controlOut_eq, Control.comb, hs, hd, Detector.controlIn, detectorIn, Unit.detectorIn, unitIn,
    Downsampler.settle_true, hw, ha, hb]
  simp [hc]

theorem controlOut_wait_high (h : s.downsampler.Inv) {c : ℕ} (hp : s.InPhase (.wait (some c)))
    (hc : 2 < c) : s.controlOut i = Control.Out.default .syncCapture := by
  obtain ⟨hs, -, hb⟩ := hp
  have ha := objDetAddr_of_beat h hb
  simp only [currState] at hs
  simp only [controlOut_eq, Control.comb, hs]
  refine if_pos (Or.inl ?_)
  show s.downsampler.objDetAddr.toNat ≠ 0
  omega

theorem controlOut_capture (h : s.downsampler.Inv) {c : ℕ} (hp : s.InPhase (.capture c))
    (hc : c ≤ frameSize) : s.controlOut i = s.captureOut := by
  obtain ⟨hs, -, hb, -⟩ := hp
  have hw := objDetWren_eq_beat h
  have ha := objDetAddr_of_beat h hb
  have hlt : s.downsampler.objDetAddr.toNat < frameSize - 1 := by rw [ha, frameSize_eq] at *; omega
  simp only [currState] at hs
  simp only [controlOut_eq, Control.comb, hs, Detector.controlIn, detectorIn, Unit.detectorIn, unitIn,
    Downsampler.settle_true, hw, hb, if_pos hlt, captureOut]
  rfl

theorem controlOut_captured (h : s.downsampler.Inv) (hp : s.InPhase (.capture (frameSize + 1))) :
    s.controlOut i = { Control.Out.default .syncCapture with initDoneI := true } := by
  obtain ⟨hs, -, hb, -⟩ := hp
  have ha := objDetAddr_of_beat h hb
  simp only [currState] at hs
  simp only [controlOut_eq, Control.comb, hs]
  refine if_neg ?_
  show ¬ s.downsampler.objDetAddr.toNat < frameSize - 1
  omega

theorem controlOut_rest (h : s.downsampler.Inv) (hp : s.InPhase .rest) :
    s.controlOut i = Control.Out.default .syncCapture := by
  obtain ⟨hs, -, hb⟩ := hp
  have hw := objDetWren_eq_beat h
  rw [hb] at hw
  simp only [currState] at hs
  simp only [controlOut_eq, Control.comb, hs]
  exact if_pos (Or.inr hw)

theorem controlOut_lead (h : s.downsampler.Inv) (hp : s.InPhase .lead) :
    s.controlOut i = Control.Out.default .startFrame := by
  obtain ⟨hs, hd, hb⟩ := hp
  have hw := objDetWren_eq_beat h
  have ha := objDetAddr_of_beat h hb
  simp only [currState, initDone] at hs hd
  simp only [controlOut_eq, Control.comb, hs, hd, Detector.controlIn, detectorIn, Unit.detectorIn, unitIn,
    Downsampler.settle_true, hw, ha, hb]
  simp

theorem controlOut_start (hp : s.InPhase .start) :
    s.controlOut i = { Control.Out.default .procFrame with frameStart := true } := by
  obtain ⟨hs, -, -⟩ := hp
  simp only [currState] at hs
  simp only [controlOut_eq, Control.comb, hs]

theorem controlOut_proc (h : s.downsampler.Inv) {c : ℕ} (hp : s.InPhase (.proc c)) (hc : c ≤ frameSize) :
    s.controlOut i = s.procOut := by
  obtain ⟨hs, -, hb, -⟩ := hp
  have hw := objDetWren_eq_beat h
  have ha := objDetAddr_of_beat h hb
  have hlt : s.downsampler.objDetAddr.toNat < frameSize - 1 := by rw [ha, frameSize_eq] at *; omega
  simp only [currState] at hs
  simp only [controlOut_eq, Control.comb, hs, Detector.controlIn, detectorIn, Unit.detectorIn, unitIn,
    Downsampler.settle_true, hw, hb, if_pos hlt, procOut]
  rfl

theorem controlOut_processed (h : s.downsampler.Inv) (hp : s.InPhase (.proc (frameSize + 1))) :
    s.controlOut i = Control.Out.default .syncCapture := by
  obtain ⟨hs, -, hb, -⟩ := hp
  have ha := objDetAddr_of_beat h hb
  simp only [currState] at hs
  simp only [controlOut_eq, Control.comb, hs]
  refine if_neg ?_
  show ¬ s.downsampler.objDetAddr.toNat < frameSize - 1
  omega

end Outputs

/-! ## The step of the pair -/

section Step

variable {s : System} (i : In)

theorem clock_currState : (s.clock true i).currState = (s.controlOut i).nextState := rfl

theorem clock_initDone :
    (s.clock true i).initDone = ((s.controlOut i).initDoneI || s.initDone) :=
  Control.clock_initDone rfl

theorem inv_clock (h : s.downsampler.Inv) : (s.clock true i).downsampler.Inv := Downsampler.inv_clock h _

/-- An idle downsampler stays idle or begins a transfer. -/
theorem beat_clock_none (h : s.downsampler.Inv) (hb : s.beat = none) :
    (s.clock true i).beat = none ∨ (s.clock true i).beat = some 0 := Downsampler.beat_clock_none h _ hb

theorem beat_clock_some (h : s.downsampler.Inv) {c : ℕ} (hb : s.beat = some c) (hc : c ≤ frameSize) :
    (s.clock true i).beat = some (c + 1) := Downsampler.beat_clock_some h _ hb hc

theorem beat_clock_last (h : s.downsampler.Inv) (hb : s.beat = some (frameSize + 1)) :
    (s.clock true i).beat = none := Downsampler.beat_clock_last h _ hb

/-- **What a clock edge does to the pair**: from a state in a phase to a state in a next phase. -/
theorem phase_step (h : s.downsampler.Inv) {p : Phase} (hp : s.InPhase p) :
    ∃ p', (s.clock true i).InPhase p' ∧ Phase.Next p p' := by
  have hcs := clock_currState (s := s) i
  have hid := clock_initDone (s := s) i
  cases p with
  | off =>
    obtain ⟨-, -, -, hno, hst⟩ := controlOut_off (i := i) hp
    rw [hno, hp.2] at hid
    rcases hst with hst | hst | hst
    · exact ⟨.off, ⟨Or.inl (hcs.trans hst), hid⟩, .off⟩
    · exact ⟨.off, ⟨Or.inr (hcs.trans hst), hid⟩, .off⟩
    · exact ⟨.wait _, ⟨hcs.trans hst, hid, rfl⟩, .accept _⟩
  | wait b =>
    cases b with
    | none =>
      rw [controlOut_wait_none h hp] at hcs hid
      rw [hp.2.1] at hid
      rcases beat_clock_none i h hp.2.2 with hb | hb
      · exact ⟨.wait none, ⟨hcs, hid, hb⟩, .waitIdle⟩
      · exact ⟨.wait (some 0), ⟨hcs, hid, hb⟩, .waitBegin⟩
    | some c =>
      by_cases hc : c ≤ 2
      · rw [controlOut_wait_low h hp hc, hp.2.1] at hid
        rw [controlOut_wait_low h hp hc] at hcs
        have hb := beat_clock_some i h hp.2.2 (by rw [frameSize_eq]; omega)
        exact ⟨.capture (c + 1), ⟨hcs, hid, hb, by omega⟩, .seize c hc⟩
      · rw [controlOut_wait_high h hp (by omega), hp.2.1] at hid
        rw [controlOut_wait_high h hp (by omega)] at hcs
        rcases Nat.lt_or_ge frameSize c with hl | hl
        · obtain rfl : c = frameSize + 1 := Nat.le_antisymm (Downsampler.beat_le h hp.2.2) hl
          exact ⟨.wait none, ⟨hcs, hid, beat_clock_last i h hp.2.2⟩, .waitEnd⟩
        · exact ⟨.wait _, ⟨hcs, hid, beat_clock_some i h hp.2.2 hl⟩, .waitPass c (by omega) hl⟩
  | capture c =>
    rcases Nat.lt_or_ge frameSize c with hl | hl
    · obtain rfl : c = frameSize + 1 := Nat.le_antisymm (Downsampler.beat_le h hp.2.2.1) hl
      rw [controlOut_captured h hp] at hcs hid
      exact ⟨.rest, ⟨hcs, hid, beat_clock_last i h hp.2.2.1⟩, .captured⟩
    · rw [controlOut_capture h hp hl] at hcs hid
      rw [hp.2.1] at hid
      exact ⟨.capture _, ⟨hcs, hid, beat_clock_some i h hp.2.2.1 hl, by omega⟩, .capture c hl⟩
  | rest =>
    rw [controlOut_rest h hp] at hcs hid
    rw [hp.2.1] at hid
    rcases beat_clock_none i h hp.2.2 with hb | hb
    · exact ⟨.rest, ⟨hcs, hid, hb⟩, .rest⟩
    · exact ⟨.lead, ⟨hcs, hid, hb⟩, .begin⟩
  | lead =>
    rw [controlOut_lead h hp] at hcs hid
    rw [hp.2.1] at hid
    exact ⟨.start, ⟨hcs, hid, beat_clock_some i h hp.2.2 (Nat.zero_le _)⟩, .start⟩
  | start =>
    rw [controlOut_start hp] at hcs hid
    rw [hp.2.1] at hid
    exact ⟨.proc 2, ⟨hcs, hid, beat_clock_some i h hp.2.2 (by rw [frameSize_eq]; omega), by omega⟩, .proc⟩
  | proc c =>
    rcases Nat.lt_or_ge frameSize c with hl | hl
    · obtain rfl : c = frameSize + 1 := Nat.le_antisymm (Downsampler.beat_le h hp.2.2.1) hl
      rw [controlOut_processed h hp] at hcs hid
      rw [hp.2.1] at hid
      exact ⟨.rest, ⟨hcs, hid, beat_clock_last i h hp.2.2.1⟩, .processed⟩
    · rw [controlOut_proc h hp hl] at hcs hid
      rw [hp.2.1] at hid
      exact ⟨.proc _, ⟨hcs, hid, beat_clock_some i h hp.2.2.1 hl, Nat.le_succ_of_le hp.2.2.2⟩, .procBeat c hl⟩

end Step

end System

end SuspiciousPackage
