import SuspiciousPackage.Config.I2CController
import SuspiciousPackage.Sync.Run

/-!
# Config.I2CAvConfig — `I2C_AV_Config`

The camera is configured from a table of register writes, one transfer for each index of it: two reads, then the writes.
A divider makes the slow clock of the bus; in the cycle before its last edge of a period `i2c_negclk` lets the state
machine and the controller take one step.  A transfer with a missing acknowledgement is repeated, another one moves the
index on.  `Stage` names the states of the two machines together, and the lemmas `clock_of_…` give their moves.
-/

namespace SuspiciousPackage

open Sync TwoWire

/-! ## `I2C_OV7670_RGB444_Config` -/

/-- The entries from `SET_OV7670` on: the number of a register above the byte for it. -/
def lutTable : List (BitVec 16) :=
  [0x1214, 0x40d0, 0x3a04, 0x3dc8, 0x1e31, 0x6b00, 0x32b6, 0x1713, 0x1801, 0x1902, 0x1a7a, 0x030a,
   0x0c00, 0x3e00, 0x7000, 0x7100, 0x7211, 0x7300, 0xa202, 0x1180, 0x7a20, 0x7b1c, 0x7c28, 0x7d3c,
   0x7e55, 0x7f68, 0x8076, 0x8180, 0x8288, 0x838f, 0x8496, 0x85a3, 0x86af, 0x87c4, 0x88d7, 0x89e8,
   0x13e0, 0x0000, 0x1000, 0x0d00, 0x1428, 0xa505, 0xab07, 0x2475, 0x2563, 0x26a5, 0x9f78, 0xa068,
   0xa103, 0xa6df, 0xa7df, 0xa8f0, 0xa990, 0xaa94, 0x13ef, 0x0e61, 0x0f4b, 0x1602, 0x2102, 0x2291,
   0x2907, 0x330b, 0x350b, 0x371d, 0x3871, 0x392a, 0x3c78, 0x4d40, 0x4e20, 0x6900, 0x7419, 0x8d4f,
   0x8e00, 0x8f00, 0x9000, 0x9100, 0x9200, 0x9600, 0x9a80, 0xb084, 0xb10c, 0xb20e, 0xb382, 0xb80a,
   0x4314, 0x44f0, 0x4534, 0x4658, 0x4728, 0x483a, 0x5988, 0x5a88, 0x5b44, 0x5c67, 0x5d49, 0x5e0e,
   0x6404, 0x6520, 0x6605, 0x9404, 0x9508, 0x6c0a, 0x6d55, 0x6e11, 0x6f9f, 0x6a40, 0x0140, 0x0240,
   0x13e7, 0x1500, 0x4f80, 0x5080, 0x5100, 0x5222, 0x535e, 0x5480, 0x589e, 0x4108, 0x3f00, 0x7505,
   0x76e1, 0x4c00, 0x7701, 0x4b09, 0xc9f0, 0x4138, 0x5640, 0x3411, 0x3b02, 0xa489, 0x9600, 0x9730,
   0x9820, 0x9930, 0x9a84, 0x9b29, 0x9c03, 0x9d4c, 0x9e3f, 0x7804, 0x7901, 0xc8f0, 0x790f, 0xc800,
   0x7910, 0xc87e, 0x790a, 0xc880, 0x790b, 0xc801, 0x790c, 0xc80f, 0x790d, 0xc820, 0x7909, 0xc880,
   0x7902, 0xc8c0, 0x7903, 0xc840, 0x7905, 0xc830, 0x7926, 0x0903, 0x3b42, 0x8c02]

def setOv7670 : ℕ := 2

def lutData (lutIndex : BitVec 8) : BitVec 16 :=
  if setOv7670 ≤ lutIndex.toNat then lutTable.getD (lutIndex.toNat - setOv7670) 0 else 0

/-! ## The state machine -/

def lutSize : ℕ := 193

/-- The registers of `Config Control`. -/
structure Setup where
  configDone : Bool
  lutIndex : BitVec 8
  mSetupSt : BitVec 2
  mI2CGo : Bool
  mI2CWr : Bool
deriving DecidableEq, Repr

namespace Setup

def init : Setup := ⟨false, 0, 0, false, false⟩

/-- An edge of `iCLK` with `i2c_negclk`. -/
def clock (mI2CEnd mI2CAck : Bool) (s : Setup) : Setup :=
  if s.lutIndex.toNat < lutSize then
    match s.mSetupSt.toNat with
    | 0 =>
      { s with configDone := false, mSetupSt := if !mI2CEnd then 1 else 0, mI2CGo := true,
               mI2CWr := !decide (s.lutIndex.toNat < 2) }
    | 1 =>
      if mI2CEnd then
        { s with configDone := false, mI2CWr := false, mI2CGo := false, mSetupSt := if !mI2CAck then 2 else 0 }
      else { s with configDone := false }
    | 2 =>
      { s with configDone := false, lutIndex := s.lutIndex + 1, mSetupSt := 0, mI2CGo := false, mI2CWr := false }
    | _ => { s with configDone := false }
  else { s with configDone := true, mSetupSt := 0, mI2CGo := false, mI2CWr := false }

section Clock

variable {s : Setup} {e a : Bool} (h : s.lutIndex.toNat < lutSize)
include h

theorem clock_idle (hst : s.mSetupSt = 0) : s.clock e a =
    { s with configDone := false, mSetupSt := if !e then 1 else 0, mI2CGo := true,
             mI2CWr := !decide (s.lutIndex.toNat < 2) } := by
  unfold clock
  rw [if_pos h, hst]
  rfl

theorem clock_busy (hst : s.mSetupSt = 1) : s.clock false a = { s with configDone := false } := by
  unfold clock
  rw [if_pos h, hst]
  rfl

theorem clock_end (hst : s.mSetupSt = 1) : s.clock true a =
    { s with configDone := false, mI2CWr := false, mI2CGo := false, mSetupSt := if !a then 2 else 0 } := by
  unfold clock
  rw [if_pos h, hst]
  rfl

theorem clock_add (hst : s.mSetupSt = 2) : s.clock e a =
    ⟨false, s.lutIndex + 1, 0, false, false⟩ := by
  unfold clock
  rw [if_pos h, hst]
  rfl

end Clock

end Setup

/-! ## `I2C_AV_Config` -/

structure I2CAvConfig where
  mI2CClkDiv : BitVec 16
  mI2CCtrlClk : Bool
  i2cEnR0 : Bool
  i2cEnR1 : Bool
  setup : Setup
  uI2CController : I2CController
deriving DecidableEq, Repr

namespace I2CAvConfig

def clkFreq : ℕ := 25000000

def i2cFreq : ℕ := 10000

/-- The values loaded by `iRST_N`. -/
def init : I2CAvConfig := ⟨0, false, false, false, Setup.init, I2CController.init⟩

def i2cNegclk (s : I2CAvConfig) : Bool := s.i2cEnR1 && !s.i2cEnR0

/-- The inputs of the controller; `released` is the level of the data line while nobody here drives it. -/
def controllerIn (released : Bool) (s : I2CAvConfig) : I2CController.In where
  i2cClk := s.mI2CCtrlClk
  i2cEn := s.i2cNegclk
  i2cWData := 0x42#8 ++ lutData s.setup.lutIndex
  wr := s.setup.mI2CWr
  go := s.setup.mI2CGo
  released := released

def scl (released : Bool) (s : I2CAvConfig) : Bool := s.uI2CController.i2cSclk (s.controllerIn released)

def sda (released : Bool) (s : I2CAvConfig) : Bool := s.uI2CController.i2cSdat (s.controllerIn released)

/-- The controller drives the data line. -/
def drives (s : I2CAvConfig) : Bool := I2CController.sdo s.setup.mI2CWr s.uI2CController.sdCounter.toNat

def ack (s : I2CAvConfig) : Bool := s.uI2CController.ack s.setup.mI2CWr

/-- An edge of `iCLK`, with `iRST_N` high. -/
def clock (released : Bool) (s : I2CAvConfig) : I2CAvConfig where
  mI2CClkDiv := if s.mI2CClkDiv.toNat < clkFreq / i2cFreq / 2 then s.mI2CClkDiv + 1 else 0
  mI2CCtrlClk := if s.mI2CClkDiv.toNat < clkFreq / i2cFreq / 2 then s.mI2CCtrlClk else !s.mI2CCtrlClk
  i2cEnR0 := s.mI2CCtrlClk
  i2cEnR1 := s.i2cEnR0
  setup := if s.i2cNegclk then s.setup.clock s.uI2CController.endTransfer s.ack else s.setup
  uI2CController := s.uI2CController.clock (s.controllerIn released)

/-! ## The slow clock -/

section Divider

variable {ins : ℕ → Bool}

/-- The run from reset; the inputs are the levels of the released data line. -/
def runOn (ins : ℕ → Bool) : ℕ → I2CAvConfig := run clock init ins

theorem runOn_succ (t : ℕ) : runOn ins (t + 1) = (runOn ins t).clock (ins t) := rfl

theorem divider_eq (t : ℕ) :
    (runOn ins t).mI2CClkDiv.toNat = t % 1251 ∧ (runOn ins t).mI2CCtrlClk = decide (t / 1251 % 2 = 1) := by
  induction t with
  | zero => exact ⟨rfl, rfl⟩
  | succ t ih =>
    obtain ⟨hdiv, hclk⟩ := ih
    rw [runOn_succ]
    show (if (runOn ins t).mI2CClkDiv.toNat < 1250 then (runOn ins t).mI2CClkDiv + 1 else 0).toNat = _ ∧
      (if (runOn ins t).mI2CClkDiv.toNat < 1250 then (runOn ins t).mI2CCtrlClk else !(runOn ins t).mI2CCtrlClk) = _
    rw [hclk]
    split_ifs with h <;> rw [hdiv] at h
    · refine ⟨?_, decide_eq_decide.mpr (by omega)⟩
      rw [BitVec.toNat_add, hdiv]
      show (t % 1251 + 1) % 65536 = _
      omega
    · refine ⟨?_, ?_⟩
      · show 0 = _
        omega
      · rw [← decide_not]
        exact decide_eq_decide.mpr (by omega)

/-- Where cycle `t` is in its period of the slow clock. -/
def phase (t : ℕ) : Phase :=
  if t / 1251 % 2 = 1 then .high
  else if t < 2 then .low
  else if t % 2502 = 0 then .fallen
  else if t % 2502 = 1 then .turn
  else .low

theorem mI2CCtrlClk_eq (t : ℕ) : (runOn ins t).mI2CCtrlClk = decide (phase t = .high) := by
  rw [(divider_eq t).2]
  refine decide_eq_decide.mpr ?_
  unfold phase
  split_ifs <;> simp_all

/-- `i2c_negclk` is high in the last cycle of a period. -/
theorem i2cNegclk_eq (t : ℕ) : (runOn ins t).i2cNegclk = decide (phase t = .turn) := by
  rcases t with _ | _ | t
  · rfl
  · rfl
  · have h1 : (runOn ins (t + 2)).i2cEnR0 = (runOn ins (t + 1)).mI2CCtrlClk := rfl
    have h2 : (runOn ins (t + 2)).i2cEnR1 = (runOn ins t).mI2CCtrlClk := rfl
    unfold i2cNegclk
    rw [h1, h2, (divider_eq t).2, (divider_eq (t + 1)).2, ← decide_not, ← Bool.decide_and]
    refine decide_eq_decide.mpr ?_
    unfold phase
    split_ifs with ha hb hc hd
    · simp; omega
    · omega
    · simp; omega
    · simp; omega
    · simp; omega

theorem phase_next {t : ℕ} (h : phase t ≠ .turn) : Phase.Next (phase t) (phase (t + 1)) := by
  unfold phase at h ⊢
  split_ifs at h ⊢ <;> first | omega | constructor | exact absurd rfl h

theorem phase_turn {t : ℕ} (h : phase t = .turn) : phase (t + 1) = .low := by
  unfold phase at h ⊢
  split_ifs at h ⊢ <;> first | rfl | omega

end Divider

/-! ## The two machines together -/

/-- Between which steps the state machine and the controller are. -/
inductive Stage
  /-- Before the first transfer of an entry. -/
  | rest
  /-- Before the repetition of a transfer. -/
  | again
  | transfer (c : ℕ)
  /-- After a transfer with all acknowledgements. -/
  | next
  /-- After another transfer. -/
  | retry
  | finished

/-- The entries that are written, after those that are read. -/
def isWrite (j : ℕ) : Bool := !decide (j < 2)

/-- What is transferred for an entry. -/
def word (j : ℕ) : BitVec 24 := 0x42#8 ++ lutData (BitVec.ofNat 8 j)

/-- The controller between two transfers; `e` is its `END`. -/
structure Idle (e : Bool) (s : I2CController) : Prop where
  sdCounter : s.sdCounter.toNat = 0
  sclk : s.sclk = true
  i2cBit : s.i2cBit = true
  endTransfer : s.endTransfer = e

/-- The state machine with index `j`. -/
structure At (st : BitVec 2) (go : Bool) (j : ℕ) (s : Setup) : Prop where
  lutIndex : s.lutIndex.toNat = j
  lt : j < lutSize
  mSetupSt : s.mSetupSt = st
  mI2CGo : s.mI2CGo = go
  configDone : s.configDone = false

/-- The stage of the entry `j`. -/
def InStage (j : ℕ) (st : Stage) (s : I2CAvConfig) : Prop :=
  match st with
  | .rest => At 0 false j s.setup ∧ Idle false s.uI2CController
  | .again => At 0 true j s.setup ∧ s.setup.mI2CWr = isWrite j ∧ Idle false s.uI2CController
  | .transfer c =>
    At 1 true j s.setup ∧ s.setup.mI2CWr = isWrite j ∧ c ≤ I2CController.last (isWrite j) ∧
      s.uI2CController.Holds (isWrite j) (word j) c
  | .next => At 2 false j s.setup ∧ Idle true s.uI2CController
  | .retry => At 0 false j s.setup ∧ Idle true s.uI2CController
  | .finished =>
    s.setup.lutIndex.toNat = lutSize ∧ j = lutSize ∧ s.setup.mI2CGo = false ∧ Idle false s.uI2CController

theorem inStage_init : InStage 0 .rest init :=
  ⟨⟨rfl, by decide, rfl, rfl, rfl⟩, ⟨rfl, rfl, rfl, rfl⟩⟩

section Tick

variable {j : ℕ} {s : I2CAvConfig} {b : Bool}

theorem At.word_eq {st : BitVec 2} {go : Bool} (h : At st go j s.setup) :
    0x42#8 ++ lutData s.setup.lutIndex = word j := by
  have hlt := h.lt
  have hidx : s.setup.lutIndex = BitVec.ofNat 8 j := by
    refine BitVec.eq_of_toNat_eq ?_
    rw [h.lutIndex, BitVec.toNat_ofNat]
    unfold lutSize at hlt
    omega
  rw [hidx]
  rfl

/-- At count `0` a transfer looks like no transfer. -/
theorem Idle.holds {c : I2CController} (h : Idle false c) (wr : Bool) (w : BitVec 24) : c.Holds wr w 0 := by
  cases wr <;> exact ⟨h.sdCounter, h.sclk, h.i2cBit, h.endTransfer⟩

variable (hn : s.i2cNegclk = true)
include hn

theorem clock_setup : (s.clock b).setup = s.setup.clock s.uI2CController.endTransfer s.ack := if_pos hn

/-- Without `GO` the controller comes to rest. -/
theorem clock_rest (hgo : s.setup.mI2CGo = false) : Idle false (s.clock b).uI2CController ∧
    ∀ wr, I2CController.acks wr (s.clock b).uI2CController = (true, true, true) := by
  have hclk : (s.clock b).uI2CController = { s.uI2CController.rest with sdCounter := 0 } := by
    show s.uI2CController.clock (s.controllerIn b) = _
    unfold I2CController.clock
    have hen : (s.controllerIn b).i2cEn = true := hn
    have hgo' : (s.controllerIn b).go = false := hgo
    rw [if_pos hen, hgo']
    unfold I2CController.nextCounter
    rw [if_pos (Or.inl hgo')]
    rfl
  rw [hclk]
  refine ⟨⟨rfl, rfl, rfl, rfl⟩, fun wr => ?_⟩
  cases wr <;> rfl

theorem clock_of_rest (h : InStage j .rest s) : InStage j (.transfer 0) (s.clock b) := by
  obtain ⟨hat, hidle⟩ := h
  have hset : (s.clock b).setup = _ := clock_setup hn
  rw [hidle.endTransfer, Setup.clock_idle (by rw [hat.lutIndex]; exact hat.lt) hat.mSetupSt] at hset
  refine ⟨?_, ?_, Nat.zero_le _, (clock_rest hn hat.mI2CGo).1.holds _ _⟩
  · rw [hset]
    exact ⟨hat.lutIndex, hat.lt, rfl, rfl, rfl⟩
  · rw [hset, ← hat.lutIndex]
    rfl

theorem clock_of_retry (h : InStage j .retry s) : InStage j .again (s.clock b) := by
  obtain ⟨hat, hidle⟩ := h
  have hset : (s.clock b).setup = _ := clock_setup hn
  rw [hidle.endTransfer, Setup.clock_idle (by rw [hat.lutIndex]; exact hat.lt) hat.mSetupSt] at hset
  refine ⟨?_, ?_, (clock_rest hn hat.mI2CGo).1⟩
  · rw [hset]
    exact ⟨hat.lutIndex, hat.lt, rfl, rfl, rfl⟩
  · rw [hset, ← hat.lutIndex]
    rfl

/-- One count of a transfer. -/
theorem holds_clock {c : ℕ} {st : BitVec 2} (hat : At st true j s.setup) (hwr : s.setup.mI2CWr = isWrite j)
    (hc : c < I2CController.last (isWrite j)) (hh : s.uI2CController.Holds (isWrite j) (word j) c) :
    (s.clock b).uI2CController.Holds (isWrite j) (word j) (c + 1) :=
  I2CController.holds_clock (i := s.controllerIn b) hh hn hat.mI2CGo hwr hat.word_eq hc

theorem clock_of_again (h : InStage j .again s) : InStage j (.transfer 1) (s.clock b) := by
  obtain ⟨hat, hwr, hidle⟩ := h
  have hpos : 0 < I2CController.last (isWrite j) := by
    cases isWrite j <;> decide
  have hset : (s.clock b).setup = _ := clock_setup hn
  rw [hidle.endTransfer, Setup.clock_idle (by rw [hat.lutIndex]; exact hat.lt) hat.mSetupSt] at hset
  refine ⟨?_, ?_, hpos, holds_clock hn hat hwr hpos (hidle.holds _ _)⟩
  · rw [hset]
    exact ⟨hat.lutIndex, hat.lt, rfl, rfl, rfl⟩
  · rw [hset, ← hat.lutIndex]
    rfl

theorem clock_of_transfer {c : ℕ} (h : InStage j (.transfer c) s) (hc : c < I2CController.last (isWrite j)) :
    InStage j (.transfer (c + 1)) (s.clock b) := by
  obtain ⟨hat, hwr, -, hh⟩ := h
  have hend : s.uI2CController.endTransfer = false := by
    rw [hh.endTransfer]
    exact decide_eq_false (by omega)
  have hset : (s.clock b).setup = _ := clock_setup hn
  rw [hend, Setup.clock_busy (by rw [hat.lutIndex]; exact hat.lt) hat.mSetupSt] at hset
  refine ⟨?_, ?_, hc, holds_clock hn hat hwr hc hh⟩
  · rw [hset]
    exact ⟨hat.lutIndex, hat.lt, hat.mSetupSt, hat.mI2CGo, rfl⟩
  · rw [hset]
    exact hwr

/-- After its last count the controller lets go of the bus. -/
theorem idle_of_last (hgo : s.setup.mI2CGo = true) (hwr : s.setup.mI2CWr = isWrite j)
    (hh : s.uI2CController.Holds (isWrite j) (word j) (I2CController.last (isWrite j))) :
    Idle true (s.clock b).uI2CController := by
  have hend : s.uI2CController.endTransfer = true := hh.endTransfer.trans (decide_eq_true rfl)
  have hcnt := hh.sdCounter
  have hclk : (s.clock b).uI2CController =
      { (if isWrite j then s.uI2CController.write (s.controllerIn b).i2cWData (s.sda b)
          else s.uI2CController.read (s.controllerIn b).i2cWData (s.sda b)) with sdCounter := 0 } := by
    show s.uI2CController.clock (s.controllerIn b) = _
    unfold I2CController.clock
    have hen : (s.controllerIn b).i2cEn = true := hn
    have hgo' : (s.controllerIn b).go = true := hgo
    have hwr' : (s.controllerIn b).wr = isWrite j := hwr
    rw [if_pos hen, if_pos hgo', hwr']
    unfold I2CController.nextCounter
    rw [if_pos (Or.inr hend)]
    rfl
  rw [hclk]
  cases hw : isWrite j with
  | true =>
    rw [hw] at hcnt
    rw [if_pos rfl]
    unfold I2CController.write
    rw [hcnt]
    exact ⟨rfl, rfl, rfl, hend⟩
  | false =>
    rw [hw] at hcnt
    rw [if_neg (by simp)]
    unfold I2CController.read
    rw [hcnt]
    exact ⟨rfl, rfl, rfl, hend⟩

theorem clock_of_last (h : InStage j (.transfer (I2CController.last (isWrite j))) s) :
    InStage j (if s.ack = false then .next else .retry) (s.clock b) := by
  obtain ⟨hat, hwr, -, hh⟩ := h
  have hend : s.uI2CController.endTransfer = true := hh.endTransfer.trans (decide_eq_true rfl)
  have hset : (s.clock b).setup = _ := clock_setup hn
  rw [hend, Setup.clock_end (by rw [hat.lutIndex]; exact hat.lt) hat.mSetupSt] at hset
  have hidle : Idle true (s.clock b).uI2CController := idle_of_last hn hat.mI2CGo hwr hh
  cases hack : s.ack with
  | false =>
    rw [hack] at hset
    refine ⟨?_, hidle⟩
    rw [hset]
    exact ⟨hat.lutIndex, hat.lt, rfl, rfl, rfl⟩
  | true =>
    rw [hack] at hset
    refine ⟨?_, hidle⟩
    rw [hset]
    exact ⟨hat.lutIndex, hat.lt, rfl, rfl, rfl⟩

theorem clock_of_next (h : InStage j .next s) :
    InStage (j + 1) (if j + 1 = lutSize then .finished else .rest) (s.clock b) := by
  obtain ⟨hat, -⟩ := h
  have hlt := hat.lt
  have hset : (s.clock b).setup = _ := clock_setup hn
  rw [Setup.clock_add (by rw [hat.lutIndex]; exact hat.lt) hat.mSetupSt] at hset
  have hidx : (s.clock b).setup.lutIndex.toNat = j + 1 := by
    rw [hset]
    show (s.setup.lutIndex + 1).toNat = _
    rw [BitVec.toNat_add, hat.lutIndex]
    unfold lutSize at hlt
    show (j + 1) % 256 = _
    omega
  have hidle := (clock_rest (b := b) hn hat.mI2CGo).1
  split_ifs with hj
  · exact ⟨hidx.trans hj, hj, by rw [hset], hidle⟩
  · exact ⟨⟨hidx, by omega, by rw [hset], by rw [hset], by rw [hset]⟩, hidle⟩

theorem clock_of_finished (h : InStage j .finished s) :
    InStage j .finished (s.clock b) ∧ (s.clock b).setup.configDone = true := by
  obtain ⟨hidx, hj, hgo, hidle⟩ := h
  have hset : (s.clock b).setup = { s.setup with configDone := true, mSetupSt := 0, mI2CGo := false, mI2CWr := false } := by
    rw [clock_setup hn]
    exact if_neg (by rw [hidx]; exact lt_irrefl _)
  rw [hset]
  refine ⟨⟨?_, hj, ?_, (clock_rest hn hgo).1⟩, rfl⟩
  · rw [hset]
    exact hidx
  · rw [hset]

end Tick

/-- Between two steps only the divider moves. -/
theorem clock_of_not_negclk {s : I2CAvConfig} {b : Bool} (hn : s.i2cNegclk = false) :
    (s.clock b).setup = s.setup ∧ (s.clock b).uI2CController = s.uI2CController := by
  unfold clock I2CController.clock
  have hen : (s.controllerIn b).i2cEn = false := hn
  rw [hn, hen]
  exact ⟨rfl, rfl⟩

theorem inStage_congr {j : ℕ} {st : Stage} {s s' : I2CAvConfig} (hs : s'.setup = s.setup)
    (hc : s'.uI2CController = s.uI2CController) (h : InStage j st s) : InStage j st s' := by
  unfold InStage at h ⊢
  rw [hs, hc]
  exact h

end I2CAvConfig

end SuspiciousPackage
