import SuspiciousPackage.Detect.Control
import SuspiciousPackage.Detect.Datapath

/-!
# Detect.Unit — `suspicious_object_detector` and `obj_det_unit_top`

`Detector` wires `obj_det_control` to `obj_det_datapath`; `Unit` puts the conversion of an RGB444 pixel to black
and white in front of it.  The datapath is reset by the FSM's `resetn_datapath`.
-/

namespace SuspiciousPackage

/-! ## `suspicious_object_detector` -/

structure Detector where
  control : Control
  datapath : Datapath

namespace Detector

structure In where
  resetn : Bool
  i2cConfigDone : Bool
  capturePixel : Bool
  captureAddr : BitVec 17
  captureWren : Bool
  detectionThres : BitVec 16
  staticThres : BitVec 16
  suspicionThres : BitVec 16
  startCapture : Bool
deriving DecidableEq, Repr

def init : Detector := ⟨Control.init, Datapath.init⟩

def controlIn (i : In) : Control.In where
  resetn := i.resetn
  i2cConfigDone := i.i2cConfigDone
  captureAddr := i.captureAddr
  captureWren := i.captureWren
  startCapture := i.startCapture

/-- The FSM outputs in this cycle. -/
def controlOut (i : In) (s : Detector) : Control.Out :=
  (s.control.settle i.resetn).comb (controlIn i)

def datapathIn (i : In) (s : Detector) : Datapath.In where
  initDone := s.control.initDone
  frameStart := (s.controlOut i).frameStart
  resetn := (s.controlOut i).resetnDatapath
  pixelIn := i.capturePixel
  refAddr := (s.controlOut i).refAddr
  refWren := (s.controlOut i).refWren
  refBramEnable := (s.controlOut i).refBramEnable
  diffAddr := (s.controlOut i).diffAddr
  diffWren := (s.controlOut i).diffWren
  diffBramEnable := (s.controlOut i).diffBramEnable
  objectThres := i.detectionThres
  staticThres := i.staticThres
  suspicionThres := i.suspicionThres

/-- The datapath registers as they show in this cycle. -/
def path (i : In) (s : Detector) : Datapath := s.datapath.settle (s.controlOut i).resetnDatapath

def objDetected (i : In) (s : Detector) : Bool := (s.path i).objectDetected (s.datapathIn i)

def suspObjDetected (i : In) (s : Detector) : Bool := (s.path i).suspicionDetected (s.datapathIn i)

def suspicionOut (s : Detector) : BitVec 16 := s.datapath.suspicionOut

def clock (i : In) (s : Detector) : Detector where
  control := (s.control.settle i.resetn).clock (controlIn i)
  datapath := (s.path i).clock (s.datapathIn i)

end Detector

/-! ## `obj_det_unit_top` -/

/-- `rgb444_to_gray`: `R * 5 + G * 9 + B * 2` on 8 bits. -/
def rgb444ToGray (red green blue : BitVec 4) : BitVec 8 :=
  red.setWidth 8 * 5 + green.setWidth 8 * 9 + blue.setWidth 8 * 2

def grayscale8ToBw (enable : Bool) (grayIn threshold : BitVec 8) : BitVec 8 :=
  if enable then (if threshold.toNat < grayIn.toNat then 0 else 255) else grayIn

def pixelR (p : BitVec 16) : BitVec 4 := p.extractLsb' 8 4

def pixelG (p : BitVec 16) : BitVec 4 := p.extractLsb' 4 4

def pixelB (p : BitVec 16) : BitVec 4 := p.extractLsb' 0 4

/-- `susp_pixel_in`: bit 0 of the black-and-white pixel. -/
def suspPixelIn (bwThres : BitVec 8) (pixelIn : BitVec 16) : Bool :=
  (grayscale8ToBw true (rgb444ToGray (pixelR pixelIn) (pixelG pixelIn) (pixelB pixelIn)) bwThres).getLsbD 0

namespace Unit

structure In where
  resetn : Bool
  bwThres : BitVec 8
  captureAddr : BitVec 17
  captureWren : Bool
  pixelIn : BitVec 16
  ov7670ConfigDone : Bool
  startCapture : Bool
  detectionThres : BitVec 16
  staticThres : BitVec 16
  suspicionThres : BitVec 16
deriving DecidableEq, Repr

/-- What `obj_det_unit_top` passes to `suspicious_object_detector`. -/
def detectorIn (i : In) : Detector.In where
  resetn := i.resetn
  i2cConfigDone := i.ov7670ConfigDone
  capturePixel := suspPixelIn i.bwThres i.pixelIn
  captureAddr := i.captureAddr
  captureWren := i.captureWren
  detectionThres := i.detectionThres
  staticThres := i.staticThres
  suspicionThres := i.suspicionThres
  startCapture := i.startCapture

/-- The unit's registers are those of its detector. -/
def clock (i : In) (s : Detector) : Detector := s.clock (detectorIn i)

end Unit

end SuspiciousPackage
