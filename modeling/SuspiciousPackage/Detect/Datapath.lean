import SuspiciousPackage.Sync.Ram
import Mathlib.Algebra.Group.Nat.Defs

/-!
# Detect.Datapath — `obj_det_datapath`

Pixel and difference registers, the reference and difference block RAMs, the pixel counters and the suspicion
level.  The wires are functions of the registers and the inputs, `Datapath.clock` is the two clocked processes
and the two RAM instances.
-/

namespace SuspiciousPackage

open Sync

/-- The three thresholds the detector compares with. -/
structure Thresholds where
  object : BitVec 16
  static : BitVec 16
  suspicion : BitVec 16
deriving DecidableEq, Repr

/-- Registers and RAMs of `obj_det_datapath`. -/
structure Datapath where
  currPixel : Bool
  pixelInD1 : Bool
  diffPixelD1 : Bool
  diffPixelD2 : Bool
  diffCnt : BitVec 17
  matchCnt : BitVec 17
  suspicion : BitVec 9
  frameCnt : BitVec 10
  refFrameBuffer : Ram Bool
  diffFrameBuffer : Ram Bool

namespace Datapath

structure In where
  initDone : Bool
  frameStart : Bool
  resetn : Bool
  pixelIn : Bool
  refAddr : BitVec 17
  refWren : Bool
  refBramEnable : Bool
  diffAddr : BitVec 17
  diffWren : Bool
  diffBramEnable : Bool
  objectThres : BitVec 16
  staticThres : BitVec 16
  suspicionThres : BitVec 16
deriving DecidableEq, Repr

/-- All registers and RAM cells `0`. -/
def init : Datapath where
  currPixel := false
  pixelInD1 := false
  diffPixelD1 := false
  diffPixelD2 := false
  diffCnt := 0
  matchCnt := 0
  suspicion := 0
  frameCnt := 0
  refFrameBuffer := Ram.const false
  diffFrameBuffer := Ram.const false

/-- The pixel registers are reset asynchronously. -/
def settle (resetn : Bool) (d : Datapath) : Datapath :=
  if resetn then d
  else { d with currPixel := false, pixelInD1 := false, diffPixelD1 := false, diffPixelD2 := false }

@[simp] theorem settle_true (d : Datapath) : d.settle true = d := rfl

theorem settle_diffCnt (resetn : Bool) (d : Datapath) : (d.settle resetn).diffCnt = d.diffCnt := by
  cases resetn <;> rfl

theorem settle_matchCnt (resetn : Bool) (d : Datapath) : (d.settle resetn).matchCnt = d.matchCnt := by
  cases resetn <;> rfl

/-! ## Wires -/

def refPixel (d : Datapath) : Bool := d.refFrameBuffer.dout

def prevDiffPixel (d : Datapath) : Bool := d.diffFrameBuffer.dout

/-- Compare current pixel to reference frame. -/
def diffPixel (i : In) (d : Datapath) : Bool := (d.refPixel ^^ d.currPixel) && i.initDone

/-- Compare difference to previous difference. -/
def matchPixel (i : In) (d : Datapath) : Bool := (d.diffPixelD2 && d.prevDiffPixel) && i.initDone

def objectDetected (i : In) (d : Datapath) : Bool := decide (i.objectThres.toNat < d.diffCnt.toNat)

def frameMatch (i : In) (d : Datapath) : Bool :=
  d.objectDetected i && decide (i.staticThres.toNat < d.matchCnt.toNat)

def suspicionDetected (i : In) (d : Datapath) : Bool :=
  decide (d.suspicion.toNat = i.suspicionThres.toNat)

/-- `suspicion` on its 16-bit output port. -/
def suspicionOut (d : Datapath) : BitVec 16 := d.suspicion.setWidth 16

/-! ## Clocked processes -/

/-- A one-bit increment on a counter. -/
def bump {w : ℕ} (cnt : BitVec w) (b : Bool) : BitVec w := cnt + (BitVec.ofBool b).setWidth w

/-- The suspicion level after a `frame_start`: cleared, or counted up and railed at the threshold. -/
def nextSuspicion (i : In) (d : Datapath) : BitVec 9 :=
  if d.frameMatch i = false then 0
  else if d.suspicion.toNat < i.suspicionThres.toNat then d.suspicion + 1 else d.suspicion

/-- One edge, from the settled registers. -/
def clock (i : In) (d : Datapath) : Datapath where
  -- gated by the write enables so that invalid pixel data does not propagate through
  pixelInD1 := i.resetn && (i.pixelIn && (i.refWren || i.diffWren))
  currPixel := i.resetn && (d.pixelInD1 && (i.refWren || i.diffWren))
  diffPixelD1 := i.resetn && d.diffPixel i
  diffPixelD2 := i.resetn && d.diffPixelD1
  suspicion :=
    if i.resetn = false ∨ i.initDone = false then 0
    else if i.frameStart then d.nextSuspicion i else d.suspicion
  diffCnt :=
    if i.resetn = false ∨ i.initDone = false then 0
    else if i.frameStart then 0 else bump d.diffCnt (i.diffWren && d.diffPixel i)
  matchCnt :=
    if i.resetn = false ∨ i.initDone = false then 0
    else if i.frameStart then 0 else bump d.matchCnt (i.diffWren && d.matchPixel i)
  frameCnt :=
    if i.resetn = false ∨ i.initDone = false then 0
    else if i.frameStart then d.frameCnt + 1 else d.frameCnt
  refFrameBuffer :=
    d.refFrameBuffer.clock .writeFirst i.refBramEnable i.refWren i.refAddr.toNat i.pixelIn
  diffFrameBuffer :=
    d.diffFrameBuffer.clock .readFirst i.diffBramEnable i.diffWren i.diffAddr.toNat (d.diffPixel i)

/-! ## Lemmas beside the definitions -/

@[simp] theorem bump_false {w : ℕ} (cnt : BitVec w) : bump cnt false = cnt := by
  simp [bump]

theorem bump_true {w : ℕ} (cnt : BitVec w) : bump cnt true = cnt + 1 := by
  apply BitVec.eq_of_toNat_eq
  simp [bump]

theorem bump_toNat {w : ℕ} {cnt : BitVec w} {b : Bool} (h : cnt.toNat + 1 < 2 ^ w) :
    (bump cnt b).toNat = cnt.toNat + b.toNat := by
  have hb : b.toNat ≤ 1 := Bool.toNat_le b
  have hb' : b.toNat < 2 ^ w := by omega
  simp only [bump, BitVec.toNat_add, BitVec.toNat_setWidth, BitVec.toNat_ofBool]
  rw [Nat.mod_eq_of_lt hb', Nat.mod_eq_of_lt (by omega)]

theorem frameMatch_iff {i : In} {d : Datapath} :
    d.frameMatch i = true ↔
      i.objectThres.toNat < d.diffCnt.toNat ∧ i.staticThres.toNat < d.matchCnt.toNat := by
  simp [frameMatch, objectDetected]

end Datapath

end SuspiciousPackage
