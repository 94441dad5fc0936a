import SuspiciousPackage.Axi.Program
import SuspiciousPackage.Detect.Reprogram
import SuspiciousPackage.Detect.StatusRead

/-!
# Detect.Drivers — the software that sets the detector up

`start_object_detection`, `set_suspicion_threshold` and `check_suspicion_alert` of the applications, and the self-test of
the driver, as programs on the bus of the detector.  `Holds` is the register file the software sees; `completes_writeReg`,
`completes_readReg` and `completes_readStat` are the rules for one access to it, whatever the detector does meanwhile.
-/

namespace SuspiciousPackage

open Sync Axi

/-! ## The programs -/

namespace Drivers

def config1Offset : ℕ := 0

def stat1Offset : ℕ := 1

def suspThresOffset : ℕ := 4

/-- `obj_det_axi_base_addr + offset`, on the address lines of the slave. -/
def regAddr (offset : ℕ) : BitVec 5 := BitVec.ofNat 5 (4 * offset)

def startObjectDetection : Program 5 Unit :=
  .read (regAddr config1Offset) fun currConfig =>
    .write (regAddr config1Offset) ((currConfig &&& 0xFFFFFFFE) ||| 0x1) (.done ())

def setSuspicionThreshold (newThres : BitVec 32) : Program 5 Unit :=
  .write (regAddr suspThresOffset) newThres (.done ())

/-- `check_suspicion_alert`, with its access to the register. -/
def readSuspicionAlert : Program 5 (BitVec 32) :=
  .read (regAddr stat1Offset) fun stat1 => .done (checkSuspicionAlert stat1)

inductive XStatus
  | success
  | failure
deriving DecidableEq, Repr

def readWriteMulFactor : ℕ := 0x10

/-- The word the self-test writes to register `index`, and expects there. -/
def testWord (index : ℕ) : BitVec 32 := BitVec.ofNat 32 ((index + 1) * readWriteMulFactor)

/-- The first loop of the self-test. -/
def writeLoop (is : List ℕ) (p : Program 5 XStatus) : Program 5 XStatus :=
  is.foldr (fun i p => .write (regAddr i) (testWord i) p) p

/-- The second one. -/
def readLoop (is : List ℕ) (p : Program 5 XStatus) : Program 5 XStatus :=
  is.foldr (fun i p => .read (regAddr i) fun v => if v ≠ testWord i then .done .failure else p) p

/-- `OBJ_DET_AXI_SLAVE_Reg_SelfTest` -/
def regSelfTest : Program 5 XStatus := writeLoop (List.range 4) (readLoop (List.range 4) (.done .success))

end Drivers

/-! ## The detector on the bus -/

namespace ObjDetAxiTop

open ObjDetAxiSlave Drivers

/-- The detector as a slave of the processor. -/
def device : Device 5 ObjDetAxiTop In where
  clock m i s := s.clock { i with s00AxiAresetn := true, s00Axi := m }
  axi s := s.slave.axi
  regDataOut s := s.slave.regDataOut
  axi_clock _ _ _ := rfl

section Access

variable {α β : Type*} {c₀ : Joint 5 α ObjDetAxiTop} {ins : ℕ → Pace × In} {t u q k : ℕ} {a : BitVec 5} {d : BitVec 32}
  {f : ℕ → BitVec 32}

/-- The detector in cycle `t`. -/
def detectorAt (c₀ : Joint 5 α ObjDetAxiTop) (ins : ℕ → Pace × In) (t : ℕ) : ObjDetAxiTop :=
  (Joint.runOn device c₀ ins t).device

/-- Its status. -/
def statusAt (c₀ : Joint 5 α ObjDetAxiTop) (ins : ℕ → Pace × In) (t : ℕ) : Status :=
  (detectorAt c₀ ins t).status (ins t).2

/-- The registers that only the processor writes hold the words `f`. -/
def Holds (f : ℕ → BitVec 32) (s : ObjDetAxiTop) : Prop := ∀ k, IsMemory k → s.slave.reg k = f k

theorem regSel_regAddr (hk : k < 8) : regSel (regAddr k) = k := by
  rw [regSel_eq]
  unfold regAddr
  rw [BitVec.toNat_ofNat, Nat.mod_eq_of_lt (by omega)]
  omega

theorem slave_succ (t : ℕ) : (detectorAt c₀ ins (t + 1)).slave = (detectorAt c₀ ins t).slave.clock true
    ((Joint.runOn device c₀ ins t).master (ins t).1) (statusAt c₀ ins t) := rfl

theorem Holds.quiet (h : Holds f (detectorAt c₀ ins t))
    (hq : Joint.Quiet device (ins t).1 (Joint.runOn device c₀ ins t)) : Holds f (detectorAt c₀ ins (t + 1)) := by
  intro k hk
  have hno : ¬ (detectorAt c₀ ins t).slave.Writes ((Joint.runOn device c₀ ins t).master (ins t).1) k := by
    rintro ⟨hw, -⟩
    exact Bool.false_ne_true (hq.symm.trans hw)
  rw [slave_succ, reg_clock hk]
  unfold writeReg
  rw [if_neg hno, h k hk]

theorem Holds.quietIn (h : Holds f (detectorAt c₀ ins t)) (hq : QuietIn device c₀ ins t u) (htu : t ≤ u) :
    Holds f (detectorAt c₀ ins u) := by
  induction u, htu using Nat.le_induction with
  | base => exact h
  | succ u htu ih =>
    exact (ih fun z h1 h2 => hq z h1 (Nat.lt_succ_of_lt h2)).quiet (hq u htu (Nat.lt_succ_self u))

theorem Holds.takes (h : Holds f (detectorAt c₀ ins q))
    (hq : Joint.Takes device (ins q).1 a d (Joint.runOn device c₀ ins q)) :
    Holds (Function.update f (regSel a) d) (detectorAt c₀ ins (q + 1)) := by
  intro k hk
  have haddr : (detectorAt c₀ ins q).slave.axi.awaddr = a := hq.awaddr
  have hwren : (detectorAt c₀ ins q).slave.axi.slvRegWren ((Joint.runOn device c₀ ins q).master (ins q).1) = true :=
    hq.wren
  rw [slave_succ, reg_clock hk]
  by_cases hka : k = regSel a
  · subst hka
    rw [writeReg_full ⟨hwren, by rw [haddr]⟩ hq.wstrb, hq.wdata, Function.update_self]
  · have hno : ¬ (detectorAt c₀ ins q).slave.Writes ((Joint.runOn device c₀ ins q).master (ins q).1) k := by
      rintro ⟨-, hsel⟩
      rw [haddr] at hsel
      exact hka hsel.symm
    unfold writeReg
    rw [if_neg hno, h k hk, Function.update_of_ne hka]

variable (hfair : Fair fun t => (ins t).1) {Q : β → ℕ → Prop}
include hfair

/-- **A write** changes its register at the edge of a cycle `q`, and no other one. -/
theorem completes_writeReg {p : Program 5 β} (hf : Holds f (detectorAt c₀ ins t))
    (h : ∀ q u, t < q → q + 2 ≤ u → (∀ z, t ≤ z → z ≤ q → Holds f (detectorAt c₀ ins z)) →
      (∀ z, q + 1 ≤ z → z ≤ u → Holds (Function.update f (regSel a) d) (detectorAt c₀ ins z)) →
      Completes device c₀ ins u p Q) :
    Completes device c₀ ins t (.write a d p) Q := by
  refine completes_write hfair fun q u htq hqu hquiet htakes hquiet' => ?_
  have hbefore : ∀ z, t ≤ z → z ≤ q → Holds f (detectorAt c₀ ins z) := fun z h1 h2 =>
    hf.quietIn (fun y hy1 hy2 => hquiet y hy1 (by omega)) h1
  refine h q u htq hqu hbefore fun z h1 h2 => ?_
  exact ((hbefore q htq.le le_rfl).takes htakes).quietIn (fun y hy1 hy2 => hquiet' y hy1 (by omega)) h1

/-- **A read** of a register that only the processor writes returns what it holds. -/
theorem completes_readReg {next : BitVec 32 → Program 5 β} (hk : IsMemory (regSel a))
    (hf : Holds f (detectorAt c₀ ins t))
    (h : ∀ u > t, (∀ z, t ≤ z → z ≤ u → Holds f (detectorAt c₀ ins z)) →
      Completes device c₀ ins u (next (f (regSel a))) Q) :
    Completes device c₀ ins t (.read a next) Q := by
  refine completes_read hfair fun q u htq hqu hquiet hgives => ?_
  have hholds : ∀ z, t ≤ z → z ≤ u → Holds f (detectorAt c₀ ins z) := fun z h1 h2 =>
    hf.quietIn (fun y hy1 hy2 => hquiet y hy1 (by omega)) h1
  have haddr : (detectorAt c₀ ins q).slave.axi.araddr = a := hgives.araddr
  have hword : device.regDataOut (Joint.runOn device c₀ ins q).device = f (regSel a) := by
    show (detectorAt c₀ ins q).slave.regDataOut = _
    rw [regDataOut_eq, haddr]
    exact hholds q htq.le (by omega) _ hk
  rw [hword]
  exact h u (by omega) hholds

/-- **A read of `STAT1`** returns the status of the cycle before the one in which it is taken. -/
theorem completes_readStat {next : BitVec 32 → Program 5 β} (ha : regSel a = 1) (hf : Holds f (detectorAt c₀ ins t))
    (h : ∀ q u, t ≤ q → q + 1 < u → Joint.Gives device (ins (q + 1)).1 a (Joint.runOn device c₀ ins (q + 1)) →
      (∀ z, t ≤ z → z ≤ u → Holds f (detectorAt c₀ ins z)) →
      Completes device c₀ ins u (next (statusWord (statusAt c₀ ins q))) Q) :
    Completes device c₀ ins t (.read a next) Q := by
  refine completes_read hfair fun q u htq hqu hquiet hgives => ?_
  have hholds : ∀ z, t ≤ z → z ≤ u → Holds f (detectorAt c₀ ins z) := fun z h1 h2 =>
    hf.quietIn (fun y hy1 hy2 => hquiet y hy1 (by omega)) h1
  obtain ⟨q, rfl⟩ : ∃ v, q = v + 1 := ⟨q - 1, by omega⟩
  have haddr : (detectorAt c₀ ins (q + 1)).slave.axi.araddr = a := hgives.araddr
  have hno : (detectorAt c₀ ins q).slave.axi.slvRegWren ((Joint.runOn device c₀ ins q).master (ins q).1) = false :=
    hquiet q (by omega) (by omega)
  have hword : device.regDataOut (Joint.runOn device c₀ ins (q + 1)).device = statusWord (statusAt c₀ ins q) := by
    show (detectorAt c₀ ins (q + 1)).slave.regDataOut = _
    rw [regDataOut_eq, haddr, ha, slave_succ]
    exact if_neg (by rw [hno]; simp)
  rw [hword]
  exact h q u (by omega) (by omega) hgives hholds

end Access

/-! ## Before the start bit -/

section NotStarted

variable {α : Type*} {c₀ : Joint 5 α ObjDetAxiTop} {ins : ℕ → Pace × In} {t q : ℕ} {s : ObjDetAxiTop} {i : In}

/-- The detector has not been started since its last reset. -/
structure NotStarted (s : ObjDetAxiTop) : Prop where
  currState : s.detector.control.currState = .reset ∨ s.detector.control.currState = .waitStart
  initDone : s.initDone = false
  level : s.level = 0

theorem comb_waiting {i : Control.In} {c : Control} (h : c.currState = .reset ∨ c.currState = .waitStart)
    (hs : i.startCapture = false) :
    ((c.comb i).nextState = .reset ∨ (c.comb i).nextState = .waitStart) ∧ (c.comb i).initDoneI = false := by
  rcases h with h | h <;> simp only [Control.comb, h, hs] <;> (try split_ifs) <;> simp

theorem NotStarted.clock (h : s.NotStarted) (hs : s.slave.startCapture = false) : (s.clock i).NotStarted := by
  have hsettle : (s.detector.control.settle i.resetn).currState = .reset ∨
      (s.detector.control.settle i.resetn).currState = .waitStart := by
    cases i.resetn
    · exact Or.inl rfl
    · exact h.currState
  have hinit : (s.detector.control.settle i.resetn).initDone = false := by
    have hd : s.detector.control.initDone = false := h.initDone
    cases i.resetn <;> exact hd
  obtain ⟨hnext, hpulse⟩ := comb_waiting (i := Detector.controlIn (s.detectorIn i)) hsettle hs
  refine ⟨?_, ?_, level_of_not_initDone h.initDone⟩
  · show (if i.resetn then _ else FsmState.reset) = _ ∨ (if i.resetn then _ else FsmState.reset) = _
    cases i.resetn
    · exact Or.inl rfl
    · exact hnext
  · show pulseDetector i.resetn ((s.detector.control.settle i.resetn).comb (Detector.controlIn (s.detectorIn i))).initDoneI
      (s.detector.control.settle i.resetn).initDone = false
    unfold pulseDetector
    rw [hinit, hpulse]
    cases i.resetn <;> rfl

theorem notStarted_run (h : (detectorAt c₀ ins t).NotStarted) (htq : t ≤ q)
    (hs : ∀ z, t ≤ z → z < q → (detectorAt c₀ ins z).slave.startCapture = false) :
    (detectorAt c₀ ins q).NotStarted := by
  induction q, htq using Nat.le_induction with
  | base => exact h
  | succ q htq ih =>
    exact (ih fun z h1 h2 => hs z h1 (Nat.lt_succ_of_lt h2)).clock (hs q htq (Nat.lt_succ_self q))

/-- It then reports a level of `0`. -/
theorem NotStarted.statusWord_ne (h : s.NotStarted) : statusWord (s.status i) ≠ testWord 1 := by
  have hlevel : s.detector.datapath.suspicion = 0 := BitVec.eq_of_toNat_eq h.level
  intro heq
  have hbit := congrArg (fun w => BitVec.getLsbD w 5) heq
  simp only [getLsbD_statusWord] at hbit
  have hsusp : (s.status i).suspicion = 0 := by
    show s.detector.datapath.suspicion.setWidth 16 = 0
    rw [hlevel]
    rfl
  rw [hsusp, if_pos (by omega)] at hbit
  exact absurd hbit (by decide)

end NotStarted

/-! ## The programs on the bus -/

section Programs

variable {α β : Type*} {c₀ : Joint 5 α ObjDetAxiTop} {ins : ℕ → Pace × In} {t : ℕ} {f : ℕ → BitVec 32}
  {Q : XStatus → ℕ → Prop} {p : Program 5 XStatus}

/-- The registers after the first loop. -/
def tested (is : List ℕ) (f : ℕ → BitVec 32) : ℕ → BitVec 32 := is.foldl (fun f i => Function.update f i (testWord i)) f

variable (hfair : Fair fun t => (ins t).1)
include hfair

theorem completes_writeLoop (is : List ℕ) (his : ∀ i ∈ is, i < 8) (hf : Holds f (detectorAt c₀ ins t))
    (h : ∀ u ≥ t, Holds (tested is f) (detectorAt c₀ ins u) →
      (∀ z, t ≤ z → z ≤ u → (detectorAt c₀ ins z).slave.slvReg0 = f 0 ∨
        (detectorAt c₀ ins z).slave.slvReg0 = testWord 0) →
      Completes device c₀ ins u p Q) :
    Completes device c₀ ins t (writeLoop is p) Q := by
  induction is generalizing t f with
  | nil =>
    refine h t le_rfl hf fun z h1 h2 => Or.inl ?_
    rw [show z = t by omega]
    exact hf 0 (by decide)
  | cons i is ih =>
    refine completes_writeReg hfair hf fun q u htq hqu hbefore hafter => ?_
    rw [regSel_regAddr (his i List.mem_cons_self)] at hafter
    refine ih (fun j hj => his j (List.mem_cons_of_mem i hj)) (hafter u (by omega) le_rfl) fun v huv hv hlow => ?_
    refine h v (by omega) hv fun z h1 h2 => ?_
    -- the first register changes with its own write only
    have hnew : Function.update f i (testWord i) 0 = f 0 ∨ Function.update f i (testWord i) 0 = testWord 0 := by
      by_cases hi : i = 0
      · subst hi
        exact Or.inr (Function.update_self ..)
      · exact Or.inl (Function.update_of_ne (Ne.symm hi) ..)
    rcases Nat.lt_or_ge q z with hz | hz
    · rcases Nat.lt_or_ge u z with huz | huz
      · rcases hlow z huz.le h2 with hz0 | hz0
        · rw [hz0]
          exact hnew
        · exact Or.inr hz0
      · have hz0 : (detectorAt c₀ ins z).slave.slvReg0 = _ := hafter z hz huz 0 (by decide)
        rw [hz0]
        exact hnew
    · exact Or.inl (hbefore z h1 hz 0 (by decide))

theorem completes_readLoop (is : List ℕ) (his : ∀ i ∈ is, i < 8 ∧ IsMemory i ∧ f i = testWord i)
    (hf : Holds f (detectorAt c₀ ins t))
    (h : ∀ u ≥ t, (∀ z, t ≤ z → z ≤ u → Holds f (detectorAt c₀ ins z)) → Completes device c₀ ins u p Q) :
    Completes device c₀ ins t (readLoop is p) Q := by
  induction is generalizing t with
  | nil =>
    refine h t le_rfl fun z h1 h2 => ?_
    rw [show z = t by omega]
    exact hf
  | cons i is ih =>
    obtain ⟨h8, hmem, hword⟩ := his i List.mem_cons_self
    have hsel := regSel_regAddr h8
    refine completes_readReg hfair (by rwa [hsel]) hf fun u htu hholds => ?_
    rw [hsel, hword, if_neg (by simp)]
    refine ih (fun j hj => his j (List.mem_cons_of_mem i hj)) (hholds u htu.le le_rfl) fun v huv hv => ?_
    refine h v (by omega) fun z h1 h2 => ?_
    rcases Nat.lt_or_ge u z with hz | hz
    · exact hv z hz.le h2
    · exact hholds z h1 hz

end Programs

/-! ### The functions of the applications -/

section Applications

variable {α : Type*} {c₀ : Joint 5 α ObjDetAxiTop} {ins : ℕ → Pace × In} {t u z : ℕ} {x : BitVec 32} {s : ObjDetAxiTop}

/-- The state machine is past `WAIT_START`. -/
def Detecting (s : ObjDetAxiTop) : Prop :=
  s.detector.control.currState ≠ .reset ∧ s.detector.control.currState ≠ .waitStart

theorem currState_clock {i : In} (hi : i.resetn = true) : (s.clock i).detector.control.currState =
    (s.detector.control.comb (Detector.controlIn (s.detectorIn i))).nextState :=
  Detector.currState_clock hi

theorem Detecting.clock {i : In} (hi : i.resetn = true) (h : s.Detecting) : (s.clock i).Detecting := by
  have hoff : ¬ ((s.clock i).detector.control.currState = .reset ∨ (s.clock i).detector.control.currState = .waitStart) := by
    rw [currState_clock hi]
    intro hnext
    rcases (Control.comb_nextState_off hnext).2 with hs | hs
    · exact h.1 hs
    · exact h.2 hs
  exact not_or.mp hoff

theorem waits_clock {i : In} (hi : i.resetn = true) (h : s.detector.control.currState = .waitStart) :
    if s.slave.startCapture = false then (s.clock i).detector.control.currState = .waitStart
    else (s.clock i).Detecting := by
  have hstart : (Detector.controlIn (s.detectorIn i)).startCapture = s.slave.startCapture := rfl
  unfold Detecting
  rw [currState_clock hi]
  simp only [Control.comb, h, hstart]
  split_ifs <;> simp

/-- A detector that waits has left `WAIT_START` two edges after the start bit has been set. -/
theorem detecting_of_start (hwait : (detectorAt c₀ ins t).detector.control.currState = .waitStart)
    (hrst : ∀ y, t ≤ y → y < u → (ins y).2.resetn = true) (htz : t ≤ z) (hzu : z < u)
    (hstart : (detectorAt c₀ ins z).slave.startCapture = true) : (detectorAt c₀ ins u).Detecting := by
  have hbefore : ∀ y, t ≤ y → y ≤ z → (detectorAt c₀ ins y).detector.control.currState = .waitStart ∨
      (detectorAt c₀ ins y).Detecting := by
    intro y hty
    induction y, hty using Nat.le_induction with
    | base => exact fun _ => Or.inl hwait
    | succ y hty ih =>
      intro hy
      have hi := hrst y hty (by omega)
      rcases ih (by omega) with hw | hd
      · have hnext := waits_clock hi hw
        split_ifs at hnext
        · exact Or.inl hnext
        · exact Or.inr hnext
      · exact Or.inr (hd.clock hi)
  have hafter : (detectorAt c₀ ins (z + 1)).Detecting := by
    rcases hbefore z htz le_rfl with hw | hd
    · have hnext := waits_clock (hrst z htz hzu) hw
      rwa [if_neg (by rw [hstart]; simp)] at hnext
    · exact hd.clock (hrst z htz hzu)
  have hkeep : ∀ y, z + 1 ≤ y → y ≤ u → (detectorAt c₀ ins y).Detecting := by
    intro y hzy
    induction y, hzy using Nat.le_induction with
    | base => exact fun _ => hafter
    | succ y hzy ih => exact fun hy => (ih (by omega)).clock (hrst y (by omega) (by omega))
  exact hkeep u hzu le_rfl

/-- The bits of the word that sets the start bit. -/
theorem getLsbD_start {i : ℕ} (hi : i < 32) :
    ((x &&& 0xFFFFFFFE) ||| 0x1).getLsbD i = (decide (i = 0) || x.getLsbD i) := by
  have hbits : ∀ i < 32, (0xFFFFFFFE : BitVec 32).getLsbD i = decide (i ≠ 0) ∧
      (0x1 : BitVec 32).getLsbD i = decide (i = 0) := by decide
  rw [BitVec.getLsbD_or, BitVec.getLsbD_and, (hbits i hi).1, (hbits i hi).2]
  by_cases h0 : i = 0 <;> simp [h0]

/-- The start bit is set, and the other fields of `CONFIG1` are as before. -/
theorem start_fields {s s' : ObjDetAxiTop} (h : s'.slave.slvReg0 = (s.slave.slvReg0 &&& 0xFFFFFFFE) ||| 0x1) :
    s'.slave.startCapture = true ∧ s'.slave.decimationRate = s.slave.decimationRate ∧
      s'.slave.bwThreshold = s.slave.bwThreshold := by
  refine ⟨?_, ?_, ?_⟩
  · unfold startCapture
    rw [h, getLsbD_start (by omega)]
    rfl
  · unfold decimationRate
    rw [h]
    apply BitVec.eq_of_getLsbD_eq
    intro i hi
    rw [BitVec.getLsbD_extractLsb', BitVec.getLsbD_extractLsb', getLsbD_start (by omega),
      decide_eq_false (by omega : ¬ 16 + i = 0)]
    rfl
  · unfold bwThreshold
    rw [h]
    apply BitVec.eq_of_getLsbD_eq
    intro i hi
    rw [BitVec.getLsbD_extractLsb', BitVec.getLsbD_extractLsb', getLsbD_start (by omega),
      decide_eq_false (by omega : ¬ 1 + i = 0)]
    rfl

theorem checkSuspicionAlert_statusWord {st : Status} :
    checkSuspicionAlert (statusWord st) = if st.objectSusp = true then 1 else 0 := by
  apply BitVec.eq_of_getLsbD_eq
  intro i hi
  have hone : ∀ i < 32, (0x1 : BitVec 32).getLsbD i = decide (i = 0) := by decide
  unfold checkSuspicionAlert
  rw [BitVec.getLsbD_and, BitVec.getLsbD_ushiftRight, hone i hi, getLsbD_statusWord]
  by_cases h0 : i = 0
  · subst h0
    cases st.objectSusp <;> rfl
  · rw [decide_eq_false h0, Bool.and_false]
    split_ifs
    · rw [hone i hi, decide_eq_false h0]
    · simp

/-- **The applications and the detector.**  At any pace of the processor, whatever the detector does and wherever they are
called: `start_object_detection` comes to its end with the start bit set, every other field and register as it was and a
detector that was waiting under way; `set_suspicion_threshold` with the new threshold, cut to 16 bits at the detector;
and `check_suspicion_alert` returns `1` or `0` as `object_susp` was in the cycle before `STAT1` is read. -/
theorem applications_complete (c₀ : Joint 5 α ObjDetAxiTop) (ins : ℕ → Pace × In) (hfair : Fair fun t => (ins t).1)
    (t : ℕ) :
    Completes device c₀ ins t startObjectDetection (fun _ u =>
      ((detectorAt c₀ ins u).slave.startCapture = true ∧
        (detectorAt c₀ ins u).slave.decimationRate = (detectorAt c₀ ins t).slave.decimationRate ∧
        (detectorAt c₀ ins u).slave.bwThreshold = (detectorAt c₀ ins t).slave.bwThreshold) ∧
      (∀ k, IsMemory k → k ≠ 0 → (detectorAt c₀ ins u).slave.reg k = (detectorAt c₀ ins t).slave.reg k) ∧
      ((detectorAt c₀ ins t).detector.control.currState = .waitStart →
        (∀ y, t ≤ y → y < u → (ins y).2.resetn = true) → (detectorAt c₀ ins u).Detecting)) ∧
    (∀ v, Completes device c₀ ins t (setSuspicionThreshold v) fun _ u =>
      (detectorAt c₀ ins u).thres = v.toNat % 65536 ∧
      ∀ k, IsMemory k → k ≠ 4 → (detectorAt c₀ ins u).slave.reg k = (detectorAt c₀ ins t).slave.reg k) ∧
    Completes device c₀ ins t readSuspicionAlert fun x u =>
      ∃ q, t ≤ q ∧ q + 1 < u ∧ Joint.Gives device (ins (q + 1)).1 (regAddr 1) (Joint.runOn device c₀ ins (q + 1)) ∧
        x = if (detectorAt c₀ ins q).objectSusp (ins q).2 = true then 1 else 0 := by
  have hnow : Holds (detectorAt c₀ ins t).slave.reg (detectorAt c₀ ins t) := fun _ _ => rfl
  have h0 : regSel (regAddr 0) = 0 := regSel_regAddr (by omega)
  have h4 : regSel (regAddr 4) = 4 := regSel_regAddr (by omega)
  refine ⟨?_, fun v => ?_, ?_⟩
  · refine completes_readReg hfair (by rw [show config1Offset = 0 from rfl, h0]; decide) hnow fun w htw hw => ?_
    refine completes_writeReg hfair (hw w htw.le le_rfl) fun q u hwq hqu _ hafter => ?_
    rw [show config1Offset = 0 from rfl, h0] at hafter
    have hword : ∀ z, q + 1 ≤ z → z ≤ u → (detectorAt c₀ ins z).slave.slvReg0 =
        ((detectorAt c₀ ins t).slave.slvReg0 &&& 0xFFFFFFFE) ||| 0x1 := fun z h1 h2 =>
      (hafter z h1 h2 0 (by decide)).trans (Function.update_self ..)
    refine completes_done ⟨start_fields (hword u (by omega) le_rfl), fun k hk hk0 => ?_, fun hwait hrst => ?_⟩
    · exact (hafter u (by omega) le_rfl k hk).trans (Function.update_of_ne hk0 ..)
    · exact detecting_of_start (z := q + 1) hwait hrst (by omega) (by omega)
        (start_fields (hword (q + 1) le_rfl (by omega))).1
  · refine completes_writeReg hfair hnow fun q u htq hqu _ hafter => completes_done ⟨?_, fun k hk hk4 => ?_⟩
    · have hreg : (detectorAt c₀ ins u).slave.slvReg4 = v := by
        have hu := hafter u (by omega) le_rfl 4 (by decide)
        rw [show suspThresOffset = 4 from rfl, h4, Function.update_self] at hu
        exact hu
      unfold thres suspicionThres
      rw [hreg, BitVec.toNat_setWidth, BitVec.toNat_setWidth]
      omega
    · have hu := hafter u (by omega) le_rfl k hk
      rw [show suspThresOffset = 4 from rfl, h4, Function.update_of_ne hk4] at hu
      exact hu
  · refine completes_readStat hfair (regSel_regAddr (k := 1) (by omega)) hnow fun q u htq hqu hgives _ => ?_
    exact completes_done ⟨q, htq, hqu, hgives, checkSuspicionAlert_statusWord⟩

/-- A processor at full speed and a camera that is ready. -/
def fullSpeed (_ : ℕ) : Pace × In where
  fst := .full
  snd :=
    { resetn := true
      s00AxiAresetn := true
      s00Axi := ⟨0, false, 0, 0, false, true, 0, false, true⟩
      objDetAddr := 0
      objDetPixel := 0
      objDetWren := false
      configFinished := true
      switches := 0 }

theorem fair_fullSpeed : Fair fun t => (fullSpeed t).1 := fair_full fun _ => rfl

/-- A program from power-up. -/
def powerUp (p : Program 5 α) : Joint 5 α ObjDetAxiTop := ⟨.start p, init⟩

theorem ready_powerUp (p : Program 5 α) : Joint.Ready device p (Joint.runOn device (powerUp p) fullSpeed 0) :=
  ⟨rfl, Slave.inWrite_init, Slave.inRead_init⟩

theorem applications_complete_powerUp : ∃ u ≥ 0, ∃ x,
    Joint.Ready device (.done x) (Joint.runOn device (powerUp startObjectDetection) fullSpeed u) ∧
      (detectorAt (powerUp startObjectDetection) fullSpeed u).slave.startCapture = true := by
  obtain ⟨u, hu, x, hr, hstart, -⟩ :=
    (applications_complete (powerUp startObjectDetection) fullSpeed fair_fullSpeed 0).1.finish (ready_powerUp _)
  exact ⟨u, hu, x, hr, hstart.1⟩

end Applications

/-! ### The self-test -/

section SelfTest

variable {c₀ : Joint 5 XStatus ObjDetAxiTop} {ins : ℕ → Pace × In} {t u : ℕ} {f : ℕ → BitVec 32}

/-- What the self-test leaves behind: detection is not started, no frame is dropped, three thresholds are overwritten. -/
structure Overwritten (s s' : ObjDetAxiTop) : Prop where
  startCapture : s'.slave.startCapture = false
  bwThreshold : s'.slave.bwThreshold = 8
  decimationRate : s'.slave.decimationRate = 0
  detectionThres : s'.slave.detectionThres = 48
  staticThres : s'.slave.staticThres = 64
  suspicionThres : s'.slave.suspicionThres = s.slave.suspicionThres

theorem Holds.overwritten {s s' : ObjDetAxiTop} (h : Holds (tested (List.range 4) s.slave.reg) s') :
    Overwritten s s' := by
  have h0 : s'.slave.slvReg0 = testWord 0 := h 0 (by decide)
  have h2 : s'.slave.slvReg2 = testWord 2 := h 2 (by decide)
  have h3 : s'.slave.slvReg3 = testWord 3 := h 3 (by decide)
  have h4 : s'.slave.slvReg4 = s.slave.slvReg4 := h 4 (by decide)
  refine ⟨?_, ?_, ?_, ?_, ?_, ?_⟩
  · unfold startCapture
    rw [h0]
    decide
  · unfold bwThreshold
    rw [h0]
    decide
  · unfold decimationRate
    rw [h0]
    decide
  · unfold detectionThres
    rw [h2]
    decide
  · unfold staticThres
    rw [h3]
    decide
  · unfold suspicionThres
    rw [h4]

/-- **The self-test** comes to its end.  It succeeds exactly if the status is `0x20` in the cycle before `STAT1` is read,
that is if the level is 32 and nothing is detected; so it never succeeds before detection has been started.  It leaves
`CONFIG1` and the thresholds overwritten. -/
theorem self_test (c₀ : Joint 5 XStatus ObjDetAxiTop) (ins : ℕ → Pace × In) (t : ℕ) (hfair : Fair fun t => (ins t).1)
    (hr : Joint.Ready device regSelfTest (Joint.runOn device c₀ ins t)) :
    ∃ u ≥ t, ∃ x, Joint.Ready device (.done x) (Joint.runOn device c₀ ins u) ∧
      (∃ q, t ≤ q ∧ q + 1 < u ∧ Joint.Gives device (ins (q + 1)).1 (regAddr 1) (Joint.runOn device c₀ ins (q + 1)) ∧
        (x = .success ↔ statusWord (statusAt c₀ ins q) = 0x20)) ∧
      Overwritten (detectorAt c₀ ins t) (detectorAt c₀ ins u) ∧
      ((detectorAt c₀ ins t).NotStarted → (detectorAt c₀ ins t).slave.startCapture = false → x = .failure) := by
  have hstart : Holds (detectorAt c₀ ins t).slave.reg (detectorAt c₀ ins t) := fun _ _ => rfl
  have hword : testWord 1 = 0x20 := rfl
  refine Completes.finish (p := regSelfTest) ?_ hr
  refine completes_writeLoop hfair _ (fun i hi => (List.mem_range.mp hi).trans (by omega)) hstart
    fun v htv hv hlow => ?_
  generalize hf : tested (List.range 4) (detectorAt c₀ ins t).slave.reg = f at hv
  have htested : f 0 = testWord 0 ∧ f 2 = testWord 2 ∧ f 3 = testWord 3 := by
    rw [← hf]
    exact ⟨rfl, rfl, rfl⟩
  have hsplit : readLoop (List.range 4) (.done .success) = readLoop [0] (.read (regAddr 1) fun v =>
      if v ≠ testWord 1 then .done .failure else readLoop [2, 3] (.done .success)) := rfl
  rw [hsplit]
  refine completes_readLoop hfair [0] (fun i hi => ?_) hv fun w hvw hw => ?_
  · rw [List.mem_singleton.mp hi]
    exact ⟨by omega, by decide, htested.1⟩
  refine completes_readStat hfair (regSel_regAddr (by omega)) (hw w hvw le_rfl) fun q y hwq hqy hgives hy => ?_
  -- the start bit stays low up to the read of the status
  have hoff : (detectorAt c₀ ins t).NotStarted → (detectorAt c₀ ins t).slave.startCapture = false →
      statusWord (statusAt c₀ ins q) ≠ testWord 1 := by
    intro hno hbit
    refine NotStarted.statusWord_ne (notStarted_run hno (by omega) fun z h1 h2 => ?_)
    have hzero : (detectorAt c₀ ins z).slave.slvReg0 = (detectorAt c₀ ins t).slave.slvReg0 ∨
        (detectorAt c₀ ins z).slave.slvReg0 = testWord 0 := by
      rcases Nat.lt_or_ge v z with hz | hz
      · rcases Nat.lt_or_ge w z with hz' | hz'
        · exact Or.inr ((hy z hz'.le (by omega) 0 (by decide)).trans htested.1)
        · exact Or.inr ((hw z hz.le hz' 0 (by decide)).trans htested.1)
      · exact hlow z h1 hz
    unfold startCapture at hbit ⊢
    rcases hzero with hz | hz
    · rw [hz, hbit]
    · rw [hz]
      decide
  by_cases hstat : statusWord (statusAt c₀ ins q) = testWord 1
  · rw [if_neg (not_not.mpr hstat)]
    refine completes_readLoop hfair [2, 3] (fun i hi => ?_) (hy y (by omega) le_rfl) fun x hyx hx => ?_
    · rcases List.mem_pair.mp hi with rfl | rfl
      · exact ⟨by omega, by decide, htested.2.1⟩
      · exact ⟨by omega, by decide, htested.2.2⟩
    refine completes_done ⟨⟨q, by omega, by omega, hgives, ?_⟩, ?_, fun hno hbit => absurd hstat (hoff hno hbit)⟩
    · rw [← hword]
      exact iff_of_true rfl hstat
    · exact Holds.overwritten (hf ▸ hx x hyx le_rfl)
  · rw [if_pos hstat]
    refine completes_done ⟨⟨q, by omega, by omega, hgives, ?_⟩, ?_, fun _ _ => rfl⟩
    · rw [← hword]
      exact iff_of_false (by decide) hstat
    · exact Holds.overwritten (hf ▸ hy y (by omega) le_rfl)

/-- Right after power-up it fails. -/
theorem self_test_powerUp :
    ∃ u ≥ 0, Joint.Ready device (.done .failure) (Joint.runOn device (powerUp regSelfTest) fullSpeed u) := by
  obtain ⟨u, hu, x, hx, -, -, hfailure⟩ :=
    self_test (powerUp regSelfTest) fullSpeed 0 fair_fullSpeed (ready_powerUp regSelfTest)
  have hno : (detectorAt (powerUp regSelfTest) fullSpeed 0).NotStarted := ⟨Or.inl rfl, rfl, rfl⟩
  rw [hfailure hno (by decide)] at hx
  exact ⟨u, hu, hx⟩

end SelfTest

end ObjDetAxiTop

end SuspiciousPackage
