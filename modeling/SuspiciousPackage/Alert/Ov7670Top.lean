import SuspiciousPackage.Detect.Transfers
import SuspiciousPackage.Detect.NoFalseAlarm

/-!
# Alert.Ov7670Top — `ov7670_top` with its two frame buffers

The downsampler and the detector between `u_frame_buffer`, which the camera fills, and `downsampled_frame_buffer`,
which keeps the transferred frames until an alert shuts its write gate.  The camera port runs on `clk25`, in phase
with `aclk`: `captureWren` is high in the cycles of `aclk` with an edge of it.  A run of the whole is a run of
`System` on the words read from the frame buffer (`system_eq`).
-/

namespace SuspiciousPackage

open Sync

structure Ov7670Top where
  system : System
  uFrameBuffer : DualRam (BitVec 16)
  downsampledFrameBuffer : DualRam (BitVec 16)

namespace Ov7670Top

structure In where
  ov7670Vsync : Bool
  captureAddr : BitVec 17
  captureWren : Bool
  rgbData16 : BitVec 16
  decimationRate : BitVec 16
  configFinished : Bool
  startCapture : Bool
  bwThres : BitVec 8
  detectionThres : BitVec 16
  staticThres : BitVec 16
  suspicionThres : BitVec 16
  /-- The read port of the downsampled frame buffer. -/
  bramAddr : BitVec 17
  /-- What the two buffers read outside their depth. -/
  frameOob : BitVec 16
  bramOob : BitVec 16
deriving DecidableEq, Repr

/-- The downsampler and the detector, with `frame_pixel` as `tdata`. -/
def systemIn (i : In) (s : Ov7670Top) : System.In where
  vsync := i.ov7670Vsync
  captureAddr := i.captureAddr
  decimationRate := i.decimationRate
  tdata := s.uFrameBuffer.doutb
  i2cConfigDone := i.configFinished
  startCapture := i.startCapture
  bwThres := i.bwThres
  detectionThres := i.detectionThres
  staticThres := i.staticThres
  suspicionThres := i.suspicionThres

def objDetAddr (s : Ov7670Top) : BitVec 17 := s.system.downsampler.objDetAddr

def objDetPixel (s : Ov7670Top) : BitVec 16 := s.system.downsampler.objDetPixel

def objDetWren (s : Ov7670Top) : Bool := s.system.downsampler.objDetWren

def objDetSusp (i : In) (s : Ov7670Top) : Bool := s.system.objectSusp (s.systemIn i)

def frameStart (i : In) (s : Ov7670Top) : Bool := s.system.frameStart (s.systemIn i)

/-- Writing to the downsampled buffer is gated by the alert. -/
def frameBramWren (i : In) (s : Ov7670Top) : Bool := s.objDetWren && !s.objDetSusp i

/-- One edge of `aclk`, with `aresetn` high. -/
def clock (i : In) (s : Ov7670Top) : Ov7670Top where
  system := s.system.clock true (s.systemIn i)
  uFrameBuffer := s.uFrameBuffer.clock frameSize i.captureWren i.captureAddr.toNat i.rgbData16 s.objDetWren
    s.system.downsampler.tdataAddr.toNat i.frameOob
  downsampledFrameBuffer := s.downsampledFrameBuffer.clock frameSize (s.frameBramWren i) s.objDetAddr.toNat
    s.objDetPixel true i.bramAddr.toNat i.bramOob

theorem frameStart_iff {i : In} {s : Ov7670Top} : s.frameStart i = true ↔ s.system.currState = .startFrame :=
  Control.comb_frameStart

theorem objDetSusp_eq {i : In} {s : Ov7670Top} :
    s.objDetSusp i = decide (s.system.datapath.suspicion.toNat = i.suspicionThres.toNat) := System.objectSusp_eq

/-- The cells of the downsampled frame buffer. -/
def kept (s : Ov7670Top) : ℕ → BitVec 16 := s.downsampledFrameBuffer.mem

/-! ## The two buffers at an edge -/

section Edge

variable {i : In} {s : Ov7670Top} {a : ℕ}

theorem frameBramWren_of_susp (h : s.objDetSusp i = true) : s.frameBramWren i = false := by
  simp [frameBramWren, h]

theorem frameBramWren_of_idle (h : s.objDetWren = false) : s.frameBramWren i = false := by
  simp [frameBramWren, h]

theorem frameBramWren_of_open (h : s.objDetWren = true) (hs : s.objDetSusp i = false) : s.frameBramWren i = true := by
  simp [frameBramWren, h, hs]

theorem kept_of_not_wren (h : s.frameBramWren i = false) : (s.clock i).kept = s.kept := by
  show (s.downsampledFrameBuffer.clock frameSize (s.frameBramWren i) _ _ _ _ _).mem = _
  rw [h]
  exact DualRam.clock_mem_of_not_wea

/-- A cell at another address is kept. -/
theorem kept_of_addr_ne (h : a ≠ s.objDetAddr.toNat) : (s.clock i).kept a = s.kept a :=
  DualRam.clock_mem_of_ne fun _ => h

/-- The addressed cell takes the pixel. -/
theorem kept_of_wren (hw : s.frameBramWren i = true) (ha : s.objDetAddr.toNat = a) (hlt : a < frameSize) :
    (s.clock i).kept a = s.objDetPixel := by
  show (s.downsampledFrameBuffer.clock frameSize (s.frameBramWren i) _ _ _ _ _).mem a = _
  rw [hw, ha, DualRam.clock_mem_of_wea hlt]
  exact Function.update_self ..

/-- Without a transfer the word read last stays. -/
theorem doutb_of_not_wren (h : s.objDetWren = false) :
    (s.clock i).uFrameBuffer.doutb = s.uFrameBuffer.doutb := by
  show (if s.objDetWren = true then _ else s.uFrameBuffer.doutb) = _
  rw [h]
  rfl

theorem doutb_of_lt (h : s.objDetWren = true) (ha : s.system.downsampler.tdataAddr.toNat = a) (hlt : a < frameSize) :
    (s.clock i).uFrameBuffer.doutb = s.uFrameBuffer.mem a := by
  show (s.uFrameBuffer.clock frameSize _ _ _ s.objDetWren s.system.downsampler.tdataAddr.toNat _).doutb = _
  rw [h, ha]
  exact DualRam.clock_doutb_of_lt hlt

theorem doutb_of_oob (h : s.objDetWren = true) (ha : frameSize ≤ s.system.downsampler.tdataAddr.toNat) :
    (s.clock i).uFrameBuffer.doutb = i.frameOob := by
  show (if s.objDetWren = true then (if _ < frameSize then _ else i.frameOob) else _) = _
  rw [h, if_pos rfl, if_neg (Nat.not_lt.mpr ha)]

end Edge

/-! ## Runs -/

section Run

variable {s₀ : Ov7670Top} {ins : ℕ → In}

def runFrom (s₀ : Ov7670Top) (ins : ℕ → In) : ℕ → Ov7670Top := run clock s₀ ins

theorem runFrom_succ (t : ℕ) : runFrom s₀ ins (t + 1) = (runFrom s₀ ins t).clock (ins t) := rfl

/-- The inputs of the downsampler and the detector along a run. -/
def systemIns (s₀ : Ov7670Top) (ins : ℕ → In) (t : ℕ) : System.In := (runFrom s₀ ins t).systemIn (ins t)

/-- **A run of the whole is a run of `System`** on the words read from the frame buffer. -/
theorem system_eq (t : ℕ) :
    (runFrom s₀ ins t).system = System.runFrom s₀.system (systemIns s₀ ins) t :=
  run_proj (f := Ov7670Top.system) (fun _ => rfl) t

/-- A cell is kept while no write goes to it. -/
theorem kept_eq {a x y : ℕ} (hxy : x ≤ y) (h : ∀ z, x ≤ z → z < y →
    (runFrom s₀ ins z).frameBramWren (ins z) = false ∨ a ≠ (runFrom s₀ ins z).objDetAddr.toNat) :
    (runFrom s₀ ins y).kept a = (runFrom s₀ ins x).kept a := by
  induction y, hxy using Nat.le_induction with
  | base => rfl
  | succ y hxy ih =>
    rw [runFrom_succ, ← ih fun z h1 h2 => h z h1 (by omega)]
    rcases h y hxy (Nat.lt_succ_self y) with hw | ha
    · rw [kept_of_not_wren hw]
    · exact kept_of_addr_ne ha

/-- The word read last stays while no transfer is in progress. -/
theorem doutb_eq {x y : ℕ} (hxy : x ≤ y) (h : ∀ z, x ≤ z → z < y → (runFrom s₀ ins z).objDetWren = false) :
    (runFrom s₀ ins y).uFrameBuffer.doutb = (runFrom s₀ ins x).uFrameBuffer.doutb := by
  induction y, hxy using Nat.le_induction with
  | base => rfl
  | succ y hxy ih =>
    rw [runFrom_succ, doutb_of_not_wren (h y hxy (Nat.lt_succ_self y))]
    exact ih fun z h1 h2 => h z h1 (by omega)

end Run

end Ov7670Top

end SuspiciousPackage
