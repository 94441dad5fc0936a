import SuspiciousPackage.Detect.Datapath

/-!
# Detect.Steady — inputs on which every cycle counts

While the same pixel, different from the reference, is presented at address `0` (`Pumping`), the pipeline fills up
(`Steady`) and from then on both counters go up in every cycle without `frame_start`.  Runs of this kind reach every
counter value.
-/

namespace SuspiciousPackage

open Sync

namespace Datapath

/-- One edge from the registers, `resetn` being asynchronous for the pixel registers. -/
def step (i : In) (d : Datapath) : Datapath := (d.settle i.resetn).clock i

/-- A black pixel is processed at address `0`, with a reference. -/
structure Pumping (i : In) : Prop where
  resetn : i.resetn = true
  initDone : i.initDone = true
  pixelIn : i.pixelIn = true
  refAddr : i.refAddr = 0
  refWren : i.refWren = false
  refBramEnable : i.refBramEnable = true
  diffAddr : i.diffAddr = 0
  diffWren : i.diffWren = true
  diffBramEnable : i.diffBramEnable = true

/-- The pipeline full of differences and matches. -/
structure Steady (d : Datapath) : Prop where
  pixelInD1 : d.pixelInD1 = true
  currPixel : d.currPixel = true
  diffPixelD1 : d.diffPixelD1 = true
  diffPixelD2 : d.diffPixelD2 = true
  refMem : d.refFrameBuffer.mem 0 = false
  refLatch : d.refFrameBuffer.latch = false
  refDout : d.refFrameBuffer.dout = false
  diffMem : d.diffFrameBuffer.mem 0 = true
  diffLatch : d.diffFrameBuffer.latch = true
  diffDout : d.diffFrameBuffer.dout = true

section Steady

variable {i : In} {d : Datapath}

theorem Steady.diffPixel (h : d.Steady) (hi : Pumping i) : d.diffPixel i = true := by
  simp [Datapath.diffPixel, refPixel, h.refDout, h.currPixel, hi.initDone]

theorem Steady.matchPixel (h : d.Steady) (hi : Pumping i) : d.matchPixel i = true := by
  simp [Datapath.matchPixel, prevDiffPixel, h.diffPixelD2, h.diffDout, hi.initDone]

theorem step_of_pumping (hi : Pumping i) : d.step i = d.clock i := by
  unfold step
  rw [hi.resetn, settle_true]

theorem Steady.step (h : d.Steady) (hi : Pumping i) : (d.step i).Steady := by
  rw [step_of_pumping hi]
  refine ⟨?_, ?_, ?_, ?_, ?_, ?_, ?_, ?_, ?_, ?_⟩ <;> simp only [clock, hi.resetn, hi.pixelIn, hi.refAddr, hi.refWren,
    hi.refBramEnable, hi.diffAddr, hi.diffWren, hi.diffBramEnable]
  · rfl
  · rw [h.pixelInD1]; rfl
  · rw [h.diffPixel hi]; rfl
  · rw [h.diffPixelD1]; rfl
  · exact h.refMem
  · exact h.refMem
  · exact h.refLatch
  · rw [h.diffPixel hi]; rfl
  · exact h.diffMem
  · exact h.diffLatch

/-- Without `frame_start` both counters go up. -/
theorem Steady.counts (h : d.Steady) (hi : Pumping i) (hf : i.frameStart = false) :
    (d.step i).diffCnt = bump d.diffCnt true ∧ (d.step i).matchCnt = bump d.matchCnt true := by
  rw [step_of_pumping hi]
  constructor
  · simp [clock, hi.resetn, hi.initDone, hi.diffWren, hf, h.diffPixel hi]
  · simp [clock, hi.resetn, hi.initDone, hi.diffWren, hf, h.matchPixel hi]

theorem counts_of_frameStart (hi : Pumping i) (hf : i.frameStart = true) :
    (d.step i).diffCnt = 0 ∧ (d.step i).matchCnt = 0 := by
  rw [step_of_pumping hi]
  constructor
  · simp [clock, hf]
  · simp [clock, hf]

end Steady

end Datapath

end SuspiciousPackage
