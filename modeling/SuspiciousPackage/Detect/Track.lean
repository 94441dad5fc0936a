import SuspiciousPackage.Detect.Capture
import SuspiciousPackage.Detect.Frame

/-!
# Detect.Track — the pipeline follows the frame model

What the datapath registers, the two RAMs and their output stages hold in each phase, in terms of the abstract
`Tally` of the last frame and of the frame in transfer: `Rested` between two transfers, `Leading` and `Starting` in the
cycles `0` and `1` of a transfer, `InFrame` in its later cycles.  One step lemma for each move of the FSM; none of
them mentions how long the downsampler was idle.
-/

namespace SuspiciousPackage

open Sync

namespace System

variable {s : System} {i : In}

def datapath (s : System) : Datapath := s.detector.datapath

/-- The datapath's inputs from the outputs of the FSM. -/
theorem datapathIn_eq :
    s.datapathIn i =
      { initDone := s.initDone, frameStart := (s.controlOut i).frameStart, resetn := (s.controlOut i).resetnDatapath
        pixelIn := s.bwPixel i, refAddr := (s.controlOut i).refAddr, refWren := (s.controlOut i).refWren
        refBramEnable := (s.controlOut i).refBramEnable, diffAddr := (s.controlOut i).diffAddr
        diffWren := (s.controlOut i).diffWren, diffBramEnable := (s.controlOut i).diffBramEnable
        objectThres := i.detectionThres, staticThres := i.staticThres, suspicionThres := i.suspicionThres } := rfl

/-- One edge of the datapath while the FSM does not reset it. -/
theorem datapath_clock_eq (hr : (s.controlOut i).resetnDatapath = true) :
    (s.clock true i).datapath = s.datapath.clock (s.datapathIn i) := by
  show (s.datapath.settle (s.controlOut i).resetnDatapath).clock (s.datapathIn i) = _
  rw [hr, Datapath.settle_true]

/-- The outputs of the FSM once there is a reference: both RAMs enabled, at the same address. -/
def detectOut (nextState : FsmState) (frameStart diffWren : Bool) (addr : BitVec 17) : Control.Out :=
  { Control.Out.default nextState with
    frameStart := frameStart, refAddr := addr, diffAddr := addr, diffWren := diffWren }

/-- **One edge of the datapath once there is a reference.** -/
theorem datapath_clock (hd : s.initDone = true) {n : FsmState} {fs w : Bool} {a : BitVec 17}
    (ho : s.controlOut i = detectOut n fs w a) :
    (s.clock true i).datapath =
      { pixelInD1 := s.bwPixel i && w
        currPixel := s.datapath.pixelInD1 && w
        diffPixelD1 := s.datapath.refFrameBuffer.dout ^^ s.datapath.currPixel
        diffPixelD2 := s.datapath.diffPixelD1
        diffCnt := if fs then 0 else
          Datapath.bump s.datapath.diffCnt (w && (s.datapath.refFrameBuffer.dout ^^ s.datapath.currPixel))
        matchCnt := if fs then 0 else
          Datapath.bump s.datapath.matchCnt (w && (s.datapath.diffPixelD2 && s.datapath.diffFrameBuffer.dout))
        suspicion := if fs then s.datapath.nextSuspicion (s.datapathIn i) else s.datapath.suspicion
        frameCnt := if fs then s.datapath.frameCnt + 1 else s.datapath.frameCnt
        refFrameBuffer := ⟨s.refMem, s.refMem a.toNat, s.datapath.refFrameBuffer.latch⟩
        diffFrameBuffer :=
          ⟨if w then Function.update s.diffMem a.toNat (s.datapath.refFrameBuffer.dout ^^ s.datapath.currPixel)
            else s.diffMem, s.diffMem a.toNat, s.datapath.diffFrameBuffer.latch⟩ } := by
  have hin : s.datapathIn i =
      { initDone := true, frameStart := fs, resetn := true, pixelIn := s.bwPixel i, refAddr := a, refWren := false,
        refBramEnable := true, diffAddr := a, diffWren := w, diffBramEnable := true,
        objectThres := i.detectionThres, staticThres := i.staticThres, suspicionThres := i.suspicionThres } := by
    rw [datapathIn_eq, hd, ho]
    rfl
  rw [datapath_clock_eq (by rw [ho]; rfl), hin]
  cases w <;>
    simp [Datapath.clock, Datapath.diffPixel, Datapath.matchPixel, Datapath.refPixel, Datapath.prevDiffPixel,
      Ram.clock, refMem, diffMem, datapath]

/-! ## The invariants -/

/-- Between two transfers. -/
structure Rested (S : Tally) (s : System) : Prop where
  ref : s.refMem = S.ref
  diff : s.diffMem = S.diff
  diffCnt : s.datapath.diffCnt.toNat = S.diffCnt
  matchCnt : s.datapath.matchCnt.toNat = S.matchCnt
  suspicion : s.datapath.suspicion = S.suspicion
  pixelInD1 : s.datapath.pixelInD1 = false
  currPixel : s.datapath.currPixel = false
  refLatch : s.datapath.refFrameBuffer.latch = S.ref 0
  diffLatch : s.datapath.diffFrameBuffer.latch = S.diff 0

/-- In cycle `0` of a transfer: both output stages of the RAMs show cell `0`. -/
structure Leading (S : Tally) (s : System) : Prop extends Rested S s where
  refDout : s.datapath.refFrameBuffer.dout = S.ref 0
  diffDout : s.datapath.diffFrameBuffer.dout = S.diff 0

/-- In cycle `1` of a transfer. -/
structure Starting (S : Tally) (s : System) : Prop extends Leading S s where
  diffPixelD1 : s.datapath.diffPixelD1 = S.ref 0

/-- In cycle `c` of the transfer of `Q`, from cycle `2` on. -/
structure InFrame (thr : Thresholds) (S : Tally) (Q : ℕ → Bool) (c : ℕ) (s : System) : Prop where
  ref : s.refMem = S.ref
  diff : s.diffMem = diffFrame S.ref S.diff Q c
  diffCnt : s.datapath.diffCnt.toNat = seen (diffBit S.ref Q) c
  matchCnt : s.datapath.matchCnt.toNat = seen (matchBit S.ref S.diff Q) c
  suspicion : s.datapath.suspicion = S.nextSuspicion thr
  pixelInD1 : s.datapath.pixelInD1 = (decide (3 ≤ c) && Q (c - 3))
  currPixel : s.datapath.currPixel = (decide (4 ≤ c) && Q (c - 4))
  diffPixelD1 : s.datapath.diffPixelD1 = diffBit S.ref Q (c - 1)
  diffPixelD2 : s.datapath.diffPixelD2 = diffBit S.ref Q (c - 2)
  refLatch : s.datapath.refFrameBuffer.latch = S.ref (c - 3)
  refDout : s.datapath.refFrameBuffer.dout = S.ref (c - 4)
  diffLatch : s.datapath.diffFrameBuffer.latch = S.diff (c - 3)
  diffDout : s.datapath.diffFrameBuffer.dout = S.diff (c - 4)

section Steps

variable {S : Tally} {thr : Thresholds} {Q : ℕ → Bool} {c : ℕ}

/-- An edge in `SYNC_CAPTURE` keeps the counts and fills the output stages with cell `0`. -/
theorem leading_of_rested (hd : s.initDone = true) {n : FsmState} (ho : s.controlOut i = detectOut n false false 0)
    (hS : Rested S s) : Leading S (s.clock true i) := by
  have hclk := datapath_clock hd ho
  have href := congrArg Datapath.refFrameBuffer hclk
  have hdiff := congrArg Datapath.diffFrameBuffer hclk
  refine { ref := ?_, diff := ?_, diffCnt := ?_, matchCnt := ?_, suspicion := ?_, pixelInD1 := ?_, currPixel := ?_,
           refLatch := ?_, diffLatch := ?_, refDout := ?_, diffDout := ?_ }
  · exact (congrArg Ram.mem href).trans hS.ref
  · exact (congrArg Ram.mem hdiff).trans hS.diff
  · rw [hclk]; simpa using hS.diffCnt
  · rw [hclk]; simpa using hS.matchCnt
  · rw [hclk]; exact hS.suspicion
  · rw [hclk]; exact Bool.and_false _
  · rw [hclk]; exact Bool.and_false _
  · rw [hclk]; exact congrFun hS.ref 0
  · rw [hclk]; exact congrFun hS.diff 0
  · rw [hclk]; exact hS.refLatch
  · rw [hclk]; exact hS.diffLatch

theorem Leading.start (h : s.downsampler.Inv) (hp : s.InPhase .lead) (hS : Leading S s) :
    Starting S (s.clock true i) := by
  have ho : s.controlOut i = detectOut .startFrame false false 0 := controlOut_lead h hp
  refine { leading_of_rested hp.2.1 ho hS.toRested with diffPixelD1 := ?_ }
  rw [datapath_clock hp.2.1 ho]
  show (s.datapath.refFrameBuffer.dout ^^ s.datapath.currPixel) = S.ref 0
  rw [hS.refDout, hS.currPixel, Bool.xor_false]

/-- The decision at `frame_start`. -/
theorem Rested.nextSuspicion (hS : Rested S s) :
    s.datapath.nextSuspicion (s.datapathIn i) = S.nextSuspicion (thresholds i) := by
  have hiff : s.datapath.frameMatch (s.datapathIn i) = true ↔ S.frameMatch (thresholds i) := by
    rw [Datapath.frameMatch_iff, hS.diffCnt, hS.matchCnt]
    exact Iff.rfl
  unfold Datapath.nextSuspicion Tally.nextSuspicion
  rw [hS.suspicion]
  by_cases hm : S.frameMatch (thresholds i)
  · rw [if_pos hm, if_neg (by simp [hiff.mpr hm])]
    rfl
  · rw [if_neg hm, if_pos (by simpa [hm] using hiff)]

/-- `frame_start` takes the decision about the last frame and clears the counts. -/
theorem Starting.proc (hp : s.InPhase .start) (hS : Starting S s) :
    InFrame (thresholds i) S Q 2 (s.clock true i) := by
  have ho : s.controlOut i = detectOut .procFrame true false 0 := controlOut_start hp
  have hclk := datapath_clock hp.2.1 ho
  have href := congrArg Datapath.refFrameBuffer hclk
  have hdiff := congrArg Datapath.diffFrameBuffer hclk
  refine ⟨?_, ?_, ?_, ?_, ?_, ?_, ?_, ?_, ?_, ?_, ?_, ?_, ?_⟩
  · exact (congrArg Ram.mem href).trans hS.ref
  · refine (congrArg Ram.mem hdiff).trans (hS.diff.trans ?_)
    funext a
    exact (diffFrame_two a).symm
  · rw [hclk]; rfl
  · rw [hclk]; rfl
  · rw [hclk]
    exact hS.nextSuspicion
  · rw [hclk]; exact Bool.and_false _
  · rw [hclk]; exact Bool.and_false _
  · rw [hclk]
    show (s.datapath.refFrameBuffer.dout ^^ s.datapath.currPixel) = _
    rw [hS.refDout, hS.currPixel, Bool.xor_false, diffBit_of_lt (by omega)]
  · rw [hclk, diffBit_of_lt (by omega)]; exact hS.diffPixelD1
  · rw [hclk]; exact congrFun hS.ref 0
  · rw [hclk]; exact hS.refLatch
  · rw [hclk]; exact congrFun hS.diff 0
  · rw [hclk]; exact hS.diffLatch

/-- One more processed cycle. -/
theorem InFrame.step (h : s.downsampler.Inv) (hp : s.InPhase (.proc c)) (hc : c ≤ frameSize)
    (hQ : s.bwPixel i = Q (c - 2)) (hS : InFrame thr S Q c s) : InFrame thr S Q (c + 1) (s.clock true i) := by
  have hfs := frameSize_eq
  have ho : s.controlOut i = detectOut .procFrame false true s.downsampler.objDetAddr := controlOut_proc h hp hc
  obtain ⟨-, hd, hb, h2⟩ := hp
  have ha := objDetAddr_of_beat h hb
  have hclk := datapath_clock hd ho
  have href := congrArg Datapath.refFrameBuffer hclk
  have hdiff := congrArg Datapath.diffFrameBuffer hclk
  -- the difference seen in this cycle
  have hbit : (s.datapath.refFrameBuffer.dout ^^ s.datapath.currPixel) = diffBit S.ref Q c := by
    rw [hS.refDout, hS.currPixel]; rfl
  have hmatch : (s.datapath.diffPixelD2 && s.datapath.diffFrameBuffer.dout) = matchBit S.ref S.diff Q c := by
    rw [hS.diffPixelD2, hS.diffDout]; rfl
  refine ⟨?_, ?_, ?_, ?_, ?_, ?_, ?_, ?_, ?_, ?_, ?_, ?_, ?_⟩
  · exact (congrArg Ram.mem href).trans hS.ref
  · refine (congrArg Ram.mem hdiff).trans ?_
    show Function.update s.diffMem s.downsampler.objDetAddr.toNat _ = _
    rw [ha, hbit, hS.diff, diffFrame_succ h2]
  · rw [hclk]
    show (Datapath.bump s.datapath.diffCnt (true && _)).toNat = _
    have hle : seen (diffBit S.ref Q) c ≤ c - 2 := seen_le
    rw [Datapath.bump_toNat (by rw [hS.diffCnt]; omega), hS.diffCnt, hbit, Bool.true_and, seen_succ h2]
  · rw [hclk]
    show (Datapath.bump s.datapath.matchCnt (true && _)).toNat = _
    have hle : seen (matchBit S.ref S.diff Q) c ≤ c - 2 := seen_le
    rw [Datapath.bump_toNat (by rw [hS.matchCnt]; omega), hS.matchCnt, hmatch, Bool.true_and, seen_succ h2]
  · rw [hclk]; exact hS.suspicion
  · rw [hclk]
    show (s.bwPixel i && true) = _
    rw [hQ, Bool.and_true, decide_eq_true (by omega), Bool.true_and, show c + 1 - 3 = c - 2 by omega]
  · rw [hclk]
    show (s.datapath.pixelInD1 && true) = _
    rw [hS.pixelInD1, Bool.and_true, show c + 1 - 4 = c - 3 by omega]
    simp
  · rw [hclk]; exact hbit
  · rw [hclk, show c + 1 - 2 = c - 1 by omega]; exact hS.diffPixelD1
  · rw [hclk]
    show s.refMem s.downsampler.objDetAddr.toNat = _
    rw [ha, hS.ref, show c + 1 - 3 = c - 2 by omega]
  · rw [hclk, show c + 1 - 4 = c - 3 by omega]; exact hS.refLatch
  · rw [hclk]
    show s.diffMem s.downsampler.objDetAddr.toNat = _
    -- READ_FIRST: the cell written in this cycle still reads as in the last frame
    rw [ha, hS.diff, diffFrame, if_neg (by omega), show c + 1 - 3 = c - 2 by omega]
  · rw [hclk, show c + 1 - 4 = c - 3 by omega]; exact hS.diffLatch

/-- The last cycle of a transfer writes nothing: the frame is processed. -/
theorem InFrame.processed (h : s.downsampler.Inv) (hp : s.InPhase (.proc (frameSize + 1)))
    (hS : InFrame thr S Q (frameSize + 1) s) : Rested (S.process thr Q) (s.clock true i) := by
  have ho : s.controlOut i = detectOut .syncCapture false false 0 := controlOut_processed h hp
  have hclk := datapath_clock hp.2.1 ho
  have href := congrArg Datapath.refFrameBuffer hclk
  have hdiff := congrArg Datapath.diffFrameBuffer hclk
  refine ⟨?_, ?_, ?_, ?_, ?_, ?_, ?_, ?_, ?_⟩
  · exact (congrArg Ram.mem href).trans hS.ref
  · exact (congrArg Ram.mem hdiff).trans hS.diff
  · rw [hclk]; exact (congrArg BitVec.toNat (Datapath.bump_false _)).trans hS.diffCnt
  · rw [hclk]; exact (congrArg BitVec.toNat (Datapath.bump_false _)).trans hS.matchCnt
  · rw [hclk]; exact hS.suspicion
  · rw [hclk]; exact Bool.and_false _
  · rw [hclk]; exact Bool.and_false _
  · rw [hclk]; exact congrFun hS.ref 0
  · rw [hclk]; exact congrFun hS.diff 0

end Steps

end System

end SuspiciousPackage
