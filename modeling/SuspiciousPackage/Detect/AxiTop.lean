import SuspiciousPackage.Axi.Slave
import SuspiciousPackage.Sync.Run
import SuspiciousPackage.Detect.Unit

/-!
# Detect.AxiTop — `obj_det_axi_slave` and `obj_det_axi_top`

The register slave in front of `obj_det_unit_top`.  Each threshold is 32 bits in its register, 17 on the wire and 16 at
the port of `obj_det_unit_top`.  The VGA debug path is in `Display.DebugPicture`.
-/

namespace SuspiciousPackage

open Sync

/-! ## `obj_det_axi_slave` -/

/-- Channel registers and the slave registers. -/
structure ObjDetAxiSlave where
  axi : Axi.Slave 5
  slvReg0 : BitVec 32
  slvReg1 : BitVec 32
  slvReg2 : BitVec 32
  slvReg3 : BitVec 32
  slvReg4 : BitVec 32
  slvReg5 : BitVec 32
deriving DecidableEq, Repr

namespace ObjDetAxiSlave

/-- What the object detection reports. -/
structure Status where
  objectSusp : Bool
  objectDetected : Bool
  suspicion : BitVec 16
deriving DecidableEq, Repr

/-- The defaults set by the reset. -/
def init : ObjDetAxiSlave where
  axi := Axi.Slave.init
  slvReg0 := (0xfff0 <<< 16) ||| (0x70 <<< 1)
  slvReg1 := 0
  slvReg2 := BitVec.ofNat 32 (frameSize >>> 4)
  slvReg3 := BitVec.ofNat 32 (frameSize >>> 5)
  slvReg4 := 40
  slvReg5 := 0

/-- The register an address selects. -/
def regSel (addr : BitVec 5) : ℕ := (addr.extractLsb' 2 3).toNat

def decimationRate (s : ObjDetAxiSlave) : BitVec 16 := s.slvReg0.extractLsb' 16 16

def bwThreshold (s : ObjDetAxiSlave) : BitVec 8 := s.slvReg0.extractLsb' 1 8

def startCapture (s : ObjDetAxiSlave) : Bool := s.slvReg0.getLsbD 0

def detectionThres (s : ObjDetAxiSlave) : BitVec 17 := s.slvReg2.setWidth 17

def staticThres (s : ObjDetAxiSlave) : BitVec 17 := s.slvReg3.setWidth 17

def suspicionThres (s : ObjDetAxiSlave) : BitVec 17 := s.slvReg4.setWidth 17

/-- `{15'h0, object_susp, object_detected, suspicion[15:0]}`, 33 bits cut to the register. -/
def statusWord (st : Status) : BitVec 32 :=
  ((0 : BitVec 15) ++ BitVec.ofBool st.objectSusp ++ BitVec.ofBool st.objectDetected ++ st.suspicion).setWidth 32

/-- The word selected for reading. -/
def regDataOut (s : ObjDetAxiSlave) : BitVec 32 :=
  match regSel s.axi.araddr with
  | 0 => s.slvReg0
  | 1 => s.slvReg1
  | 2 => s.slvReg2
  | 3 => s.slvReg3
  | 4 => s.slvReg4
  | 5 => s.slvReg5
  | _ => 0

/-- Register `k` is written at this edge. -/
def Writes (m : Axi.Master 5) (k : ℕ) (s : ObjDetAxiSlave) : Prop :=
  s.axi.slvRegWren m = true ∧ regSel s.axi.awaddr = k

instance (m : Axi.Master 5) (k : ℕ) (s : ObjDetAxiSlave) : Decidable (s.Writes m k) :=
  inferInstanceAs (Decidable (_ ∧ _))

/-- Register `k`, now `old`, after this edge. -/
def writeReg (m : Axi.Master 5) (k : ℕ) (old : BitVec 32) (s : ObjDetAxiSlave) : BitVec 32 :=
  if s.Writes m k then Axi.writeStrobes 4 m.wstrb m.wdata old else old

def clock (aresetn : Bool) (m : Axi.Master 5) (st : Status) (s : ObjDetAxiSlave) : ObjDetAxiSlave :=
  if aresetn = false then init
  else
    { axi := s.axi.clock aresetn m s.regDataOut
      slvReg0 := s.writeReg m 0 s.slvReg0
      -- the status is sampled in every cycle without a write
      slvReg1 := if s.axi.slvRegWren m then s.writeReg m 1 s.slvReg1 else statusWord st
      slvReg2 := s.writeReg m 2 s.slvReg2
      slvReg3 := s.writeReg m 3 s.slvReg3
      slvReg4 := s.writeReg m 4 s.slvReg4
      slvReg5 := s.writeReg m 5 s.slvReg5 }

theorem writeReg_full {m : Axi.Master 5} {k : ℕ} {old : BitVec 32} {s : ObjDetAxiSlave} (h : s.Writes m k)
    (hstrb : m.wstrb = 0xF) : s.writeReg m k old = m.wdata := by
  unfold writeReg
  rw [if_pos h, hstrb]
  exact Axi.writeStrobes_full

end ObjDetAxiSlave

/-! ## `obj_det_axi_top` -/

structure ObjDetAxiTop where
  slave : ObjDetAxiSlave
  detector : Detector

namespace ObjDetAxiTop

structure In where
  resetn : Bool
  s00AxiAresetn : Bool
  s00Axi : Axi.Master 5
  objDetAddr : BitVec 17
  objDetPixel : BitVec 16
  objDetWren : Bool
  configFinished : Bool
  switches : BitVec 16
deriving DecidableEq, Repr

/-- Power-up: registers reset, block RAMs zero-initialised. -/
def init : ObjDetAxiTop := ⟨ObjDetAxiSlave.init, Detector.init⟩

/-- Mux between AXI threshold and switches threshold. -/
def bwThresIn (i : In) (s : ObjDetAxiTop) : BitVec 8 :=
  if i.switches.getLsbD 15 = false then s.slave.bwThreshold else i.switches.setWidth 8

/-- The 17-bit threshold wires at the 16-bit ports of `obj_det_unit_top`. -/
def unitIn (i : In) (s : ObjDetAxiTop) : Unit.In where
  resetn := i.resetn
  bwThres := s.bwThresIn i
  captureAddr := i.objDetAddr
  captureWren := i.objDetWren
  pixelIn := i.objDetPixel
  ov7670ConfigDone := i.configFinished
  startCapture := s.slave.startCapture
  detectionThres := s.slave.detectionThres.setWidth 16
  staticThres := s.slave.staticThres.setWidth 16
  suspicionThres := s.slave.suspicionThres.setWidth 16

def detectorIn (i : In) (s : ObjDetAxiTop) : Detector.In := Unit.detectorIn (s.unitIn i)

def objectDetected (i : In) (s : ObjDetAxiTop) : Bool := s.detector.objDetected (s.detectorIn i)

def objectSusp (i : In) (s : ObjDetAxiTop) : Bool := s.detector.suspObjDetected (s.detectorIn i)

/-- `frame_match` inside the datapath. -/
def frameMatch (i : In) (s : ObjDetAxiTop) : Bool :=
  (s.detector.path (s.detectorIn i)).frameMatch (s.detector.datapathIn (s.detectorIn i))

def diffCnt (s : ObjDetAxiTop) : BitVec 17 := s.detector.datapath.diffCnt

def matchCnt (s : ObjDetAxiTop) : BitVec 17 := s.detector.datapath.matchCnt

def status (i : In) (s : ObjDetAxiTop) : ObjDetAxiSlave.Status where
  objectSusp := s.objectSusp i
  objectDetected := s.objectDetected i
  suspicion := s.detector.suspicionOut

def clock (i : In) (s : ObjDetAxiTop) : ObjDetAxiTop where
  slave := s.slave.clock i.s00AxiAresetn i.s00Axi (s.status i)
  detector := Unit.clock (s.unitIn i) s.detector

/-- The run from power-up. -/
def runOn (ins : ℕ → In) : ℕ → ObjDetAxiTop := run clock init ins

/-! ## The thresholds -/

theorem objectDetected_iff {i : In} {s : ObjDetAxiTop} :
    s.objectDetected i = true ↔ s.slave.detectionThres.toNat % 65536 < s.diffCnt.toNat := by
  have h : s.objectDetected i = decide ((s.slave.detectionThres.setWidth 16).toNat < s.diffCnt.toNat) := by
    show (s.detector.datapath.settle (s.detector.controlOut (s.detectorIn i)).resetnDatapath).objectDetected _ = _
    cases (s.detector.controlOut (s.detectorIn i)).resetnDatapath <;> rfl
  rw [h, decide_eq_true_iff, BitVec.toNat_setWidth]

theorem frameMatch_iff {i : In} {s : ObjDetAxiTop} :
    s.frameMatch i = true ↔ s.slave.detectionThres.toNat % 65536 < s.diffCnt.toNat ∧
      s.slave.staticThres.toNat % 65536 < s.matchCnt.toNat := by
  have hd : (s.detector.path (s.detectorIn i)).diffCnt = s.diffCnt := by
    show (s.detector.datapath.settle (s.detector.controlOut (s.detectorIn i)).resetnDatapath).diffCnt = _
    cases (s.detector.controlOut (s.detectorIn i)).resetnDatapath <;> rfl
  have hm : (s.detector.path (s.detectorIn i)).matchCnt = s.matchCnt := by
    show (s.detector.datapath.settle (s.detector.controlOut (s.detectorIn i)).resetnDatapath).matchCnt = _
    cases (s.detector.controlOut (s.detectorIn i)).resetnDatapath <;> rfl
  have ho : (s.detector.datapathIn (s.detectorIn i)).objectThres.toNat = s.slave.detectionThres.toNat % 65536 :=
    BitVec.toNat_setWidth ..
  have hs : (s.detector.datapathIn (s.detectorIn i)).staticThres.toNat = s.slave.staticThres.toNat % 65536 :=
    BitVec.toNat_setWidth ..
  unfold frameMatch
  rw [Datapath.frameMatch_iff, hd, hm, ho, hs]

/-- The latest write to register `k` before cycle `t`, with full strobes, put `v` on its low 17 bits. -/
def LatestWrite (ins : ℕ → In) (k : ℕ) (v : BitVec 17) (t : ℕ) : Prop :=
  ∃ u < t, (runOn ins u).slave.Writes (ins u).s00Axi k ∧ (ins u).s00Axi.wstrb = 0xF ∧
    (ins u).s00Axi.wdata.setWidth 17 = v ∧ (∀ x, u ≤ x → x < t → (ins x).s00AxiAresetn = true) ∧
    ∀ x, u < x → x < t → ¬ (runOn ins x).slave.Writes (ins x).s00Axi k

/-- A register that is written by the master only holds its latest word. -/
theorem reg_of_latestWrite {ins : ℕ → In} {k t : ℕ} {v : BitVec 17} (reg : ObjDetAxiSlave → BitVec 32)
    (hreg : ∀ (m : Axi.Master 5) st (s : ObjDetAxiSlave), reg (s.clock true m st) = s.writeReg m k (reg s))
    (h : LatestWrite ins k v t) : (reg (runOn ins t).slave).setWidth 17 = v := by
  obtain ⟨u, hu, hw, hstrb, hv, hrst, hlater⟩ := h
  induction t, hu using Nat.le_induction with
  | base =>
    have hclk : (runOn ins (u + 1)).slave = _ :=
      congrArg (fun b => (runOn ins u).slave.clock b (ins u).s00Axi ((runOn ins u).status (ins u)))
        (hrst u le_rfl (Nat.lt_succ_self u))
    rw [hclk, hreg, ObjDetAxiSlave.writeReg_full hw hstrb, hv]
  | succ t hut ih =>
    have hut' : u < t := hut
    have hclk : (runOn ins (t + 1)).slave = _ :=
      congrArg (fun b => (runOn ins t).slave.clock b (ins t).s00Axi ((runOn ins t).status (ins t)))
        (hrst t hut'.le (Nat.lt_succ_self t))
    have hno : (runOn ins t).slave.writeReg (ins t).s00Axi k (reg (runOn ins t).slave) = reg (runOn ins t).slave :=
      if_neg (hlater t hut' (Nat.lt_succ_self t))
    rw [hclk, hreg, hno]
    exact ih (fun x h1 h2 => hrst x h1 (by omega)) fun x h1 h2 => hlater x h1 (by omega)

theorem detectionThres_of_latestWrite {ins : ℕ → In} {t : ℕ} {v : BitVec 17} (h : LatestWrite ins 2 v t) :
    (runOn ins t).slave.detectionThres = v :=
  reg_of_latestWrite ObjDetAxiSlave.slvReg2 (fun _ _ _ => rfl) h

theorem staticThres_of_latestWrite {ins : ℕ → In} {t : ℕ} {v : BitVec 17} (h : LatestWrite ins 3 v t) :
    (runOn ins t).slave.staticThres = v :=
  reg_of_latestWrite ObjDetAxiSlave.slvReg3 (fun _ _ _ => rfl) h

end ObjDetAxiTop

end SuspiciousPackage
