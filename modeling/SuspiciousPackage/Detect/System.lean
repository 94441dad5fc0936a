import SuspiciousPackage.Sync.Run
import SuspiciousPackage.Detect.Unit

/-!
# Detect.System — `frame_downsampler` driving `obj_det_unit_top`

The streaming half of the design, as `ov7670_top` and `obj_det_axi_top` are wired: one clock, one reset.  The word
`tdata` read from the immediate frame buffer and the camera signals are inputs, so a run covers every content and
timing of the camera side.
-/

namespace SuspiciousPackage

open Sync

structure System where
  downsampler : Downsampler
  detector : Detector

namespace System

structure In where
  vsync : Bool
  captureAddr : BitVec 17
  decimationRate : BitVec 16
  tdata : BitVec 16
  i2cConfigDone : Bool
  startCapture : Bool
  bwThres : BitVec 8
  detectionThres : BitVec 16
  staticThres : BitVec 16
  suspicionThres : BitVec 16
deriving DecidableEq, Repr

def thresholds (i : In) : Thresholds := ⟨i.detectionThres, i.staticThres, i.suspicionThres⟩

/-- Power-up: registers reset, block RAMs zero-initialised. -/
def init : System := ⟨Downsampler.init, Detector.init⟩

def downsamplerIn (i : In) : Downsampler.In where
  captureAddr := i.captureAddr
  decimationRate := i.decimationRate
  vsync := i.vsync
  tdata := i.tdata

def unitIn (resetn : Bool) (i : In) (s : System) : Unit.In where
  resetn := resetn
  bwThres := i.bwThres
  captureAddr := (s.downsampler.settle resetn).objDetAddr
  captureWren := (s.downsampler.settle resetn).objDetWren
  pixelIn := (s.downsampler.settle resetn).objDetPixel
  ov7670ConfigDone := i.i2cConfigDone
  startCapture := i.startCapture
  detectionThres := i.detectionThres
  staticThres := i.staticThres
  suspicionThres := i.suspicionThres

def clock (resetn : Bool) (i : In) (s : System) : System where
  downsampler := s.downsampler.clock resetn (downsamplerIn i)
  detector := Unit.clock (unitIn resetn i s) s.detector

/-- The state during cycle `t` of the run from `s₀` with `resetn` held high. -/
def runFrom (s₀ : System) (ins : ℕ → In) : ℕ → System := run (clock true) s₀ ins

theorem runFrom_succ {s₀ : System} {ins : ℕ → In} (t : ℕ) :
    runFrom s₀ ins (t + 1) = (runFrom s₀ ins t).clock true (ins t) := rfl

/-! ## Signals (with `resetn` high) -/

section Signals

variable (i : In) (s : System)

def detectorIn : Detector.In := Unit.detectorIn (unitIn true i s)

/-- The outputs of the FSM. -/
def controlOut : Control.Out := s.detector.controlOut (s.detectorIn i)

def datapathIn : Datapath.In := s.detector.datapathIn (s.detectorIn i)

/-- The black/white value of the pixel the downsampler presents. -/
def bwPixel : Bool := suspPixelIn i.bwThres s.downsampler.objDetPixel

def currState : FsmState := s.detector.control.currState

def initDone : Bool := s.detector.control.initDone

def frameStart : Bool := (s.controlOut i).frameStart

def objectDetected : Bool := s.detector.objDetected (s.detectorIn i)

def objectSusp : Bool := s.detector.suspObjDetected (s.detectorIn i)

/-- The position in the current transfer of the downsampler. -/
def beat : Option ℕ := s.downsampler.beat

end Signals

end System

end SuspiciousPackage
