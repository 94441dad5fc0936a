import SuspiciousPackage.Axi.Stages
import SuspiciousPackage.Detect.AxiTop
import SuspiciousPackage.Detect.Steady

/-!
# Detect.ThresholdPorts — which programmed thresholds the detector compares with

The wires of the pixel thresholds have 17 bits, the ports they drive 16, the counters 17.  The detector compares with
the programmed values iff both are below `65536` (`compares_iff`).  `pump` is a run that programs both registers and
then raises both counters by one in every cycle.
-/

namespace SuspiciousPackage

open Sync

namespace ObjDetAxiTop

/-- The detector compares with the programmed thresholds `D` and `S`: in every reachable state in which they are the
latest values written, `object_detected` iff `diff_cnt > D` and `frame_match` iff `diff_cnt > D` and `match_cnt > S`; so
against lower thresholds at the same counts neither output has gone from `0` to `1`. -/
def Compares (D S : BitVec 17) : Prop :=
  ∀ (ins : ℕ → In) (t : ℕ), LatestWrite ins 2 D t → LatestWrite ins 3 S t →
    ((runOn ins t).objectDetected (ins t) = true ↔ D.toNat < (runOn ins t).diffCnt.toNat) ∧
    ((runOn ins t).frameMatch (ins t) = true ↔
      D.toNat < (runOn ins t).diffCnt.toNat ∧ S.toNat < (runOn ins t).matchCnt.toNat) ∧
    ∀ (D' S' : BitVec 17) (ins' : ℕ → In) (t' : ℕ), D'.toNat ≤ D.toNat → S'.toNat ≤ S.toNat →
      LatestWrite ins' 2 D' t' → LatestWrite ins' 3 S' t' → (runOn ins' t').diffCnt = (runOn ins t).diffCnt →
      (runOn ins' t').matchCnt = (runOn ins t).matchCnt →
      ((runOn ins t).objectDetected (ins t) = true → (runOn ins' t').objectDetected (ins' t') = true) ∧
      ((runOn ins t).frameMatch (ins t) = true → (runOn ins' t').frameMatch (ins' t') = true)

/-- What the outputs are, whatever was programmed. -/
theorem outputs_of_latestWrite {ins : ℕ → In} {t : ℕ} {D S : BitVec 17} (hD : LatestWrite ins 2 D t)
    (hS : LatestWrite ins 3 S t) :
    ((runOn ins t).objectDetected (ins t) = true ↔ D.toNat % 65536 < (runOn ins t).diffCnt.toNat) ∧
    ((runOn ins t).frameMatch (ins t) = true ↔
      D.toNat % 65536 < (runOn ins t).diffCnt.toNat ∧ S.toNat % 65536 < (runOn ins t).matchCnt.toNat) := by
  rw [objectDetected_iff, frameMatch_iff, detectionThres_of_latestWrite hD, staticThres_of_latestWrite hS]
  exact ⟨Iff.rfl, Iff.rfl⟩

theorem compares_of_lt {D S : BitVec 17} (hD : D.toNat < 65536) (hS : S.toNat < 65536) : Compares D S := by
  intro ins t hwD hwS
  obtain ⟨hdet, hmatch⟩ := outputs_of_latestWrite hwD hwS
  rw [Nat.mod_eq_of_lt hD] at hdet hmatch
  rw [Nat.mod_eq_of_lt hS] at hmatch
  refine ⟨hdet, hmatch, fun D' S' ins' t' hle hle' hwD' hwS' hd hm => ?_⟩
  obtain ⟨hdet', hmatch'⟩ := outputs_of_latestWrite hwD' hwS'
  rw [Nat.mod_eq_of_lt (by omega : D'.toNat < 65536)] at hdet' hmatch'
  rw [Nat.mod_eq_of_lt (by omega : S'.toNat < 65536)] at hmatch'
  refine ⟨fun h => ?_, fun h => ?_⟩
  · rw [hdet', hd]
    exact hle.trans_lt (hdet.mp h)
  · rw [hmatch', hd, hm]
    obtain ⟨h1, h2⟩ := hmatch.mp h
    exact ⟨hle.trans_lt h1, hle'.trans_lt h2⟩

/-! ## A run that reaches every count -/

/-- The register writes of the run: the start bit in cycle `1`, `D` in cycle `20` and `S` in cycle `23`. -/
def pumpMaster (D S : BitVec 17) (t : ℕ) : Axi.Master 5 where
  awaddr := if t < 19 then 0 else if t < 22 then 8 else 12
  awvalid := decide (t < 2 ∨ t = 19 ∨ t = 20 ∨ t = 22 ∨ t = 23)
  wdata := if t < 19 then 1 else if t < 22 then D.setWidth 32 else S.setWidth 32
  wstrb := 0xF
  wvalid := decide (t < 2 ∨ t = 19 ∨ t = 20 ∨ t = 22 ∨ t = 23)
  bready := true
  araddr := 0
  arvalid := false
  rready := true

/-- The camera is ready from cycle `8` on; the capture is cut short in cycle `11`; black pixels at address `0`. -/
def pump (D S : BitVec 17) (t : ℕ) : In where
  resetn := true
  s00AxiAresetn := true
  s00Axi := pumpMaster D S t
  objDetAddr := if t = 11 then 76799 else 0
  objDetPixel := 0
  objDetWren := true
  configFinished := decide (8 ≤ t)
  switches := 0

section Pump

variable {D S : BitVec 17} {t : ℕ} {s : ObjDetAxiTop}

/-- Up to cycle `19` the run does not depend on the thresholds. -/
theorem runOn_pump_nineteen : runOn (pump D S) 19 = runOn (pump 0 0) 19 :=
  run_congr fun u hu => by simp [pump, pumpMaster, hu]

/-- The write side in the cycles of the two threshold writes. -/
theorem stages_pump :
    (runOn (pump D S) 19).slave.axi.InWrite .idle ∧ (runOn (pump D S) 20).slave.axi.InWrite (.accepted 8) ∧
      (runOn (pump D S) 22).slave.axi.InWrite .idle ∧ (runOn (pump D S) 23).slave.axi.InWrite (.accepted 12) := by
  have h19 : (runOn (pump D S) 19).slave.axi.InWrite .idle := by
    rw [runOn_pump_nineteen]
    exact ⟨rfl, rfl, rfl, rfl⟩
  have h20 : (runOn (pump D S) 20).slave.axi.InWrite (.accepted 8) := Axi.Slave.write_accept h19 rfl rfl
  have h21 : (runOn (pump D S) 21).slave.axi.InWrite .responding := Axi.Slave.write_done h20 rfl rfl
  have h22 : (runOn (pump D S) 22).slave.axi.InWrite .idle := Axi.Slave.write_respond h21 rfl
  exact ⟨h19, h20, h22, Axi.Slave.write_accept h22 rfl rfl⟩

/-- From cycle `19` on there are just the two threshold writes. -/
theorem writes_pump (ht : 19 ≤ t) {k : ℕ} (hw : (runOn (pump D S) t).slave.Writes (pumpMaster D S t) k) :
    t = 20 ∧ k = 2 ∨ t = 23 ∧ k = 3 := by
  obtain ⟨h19, h20, h22, h23⟩ := stages_pump (D := D) (S := S)
  obtain ⟨hwren, hsel⟩ := hw
  by_cases hv : t < 2 ∨ t = 19 ∨ t = 20 ∨ t = 22 ∨ t = 23
  · rcases hv with hv | rfl | rfl | rfl | rfl
    · omega
    · rw [Axi.Slave.slvRegWren_of_wready h19.2.1] at hwren
      cases hwren
    · rw [h20.2.2.2.2] at hsel
      exact Or.inl ⟨rfl, hsel.symm⟩
    · rw [Axi.Slave.slvRegWren_of_wready h22.2.1] at hwren
      cases hwren
    · rw [h23.2.2.2.2] at hsel
      exact Or.inr ⟨rfl, hsel.symm⟩
  · have hwv : (pumpMaster D S t).wvalid = false := decide_eq_false hv
    simp [Axi.Slave.slvRegWren, hwv] at hwren

theorem latestWrite_detection (ht : 23 < t) : LatestWrite (pump D S) 2 D t := by
  obtain ⟨-, h20, -, -⟩ := stages_pump (D := D) (S := S)
  refine ⟨20, by omega, ⟨?_, ?_⟩, rfl, ?_, fun _ _ _ => rfl, fun x h1 h2 hw => ?_⟩
  · exact (Axi.Slave.slvRegWren_of_accepted h20).trans rfl
  · rw [h20.2.2.2.2]
    rfl
  · show (D.setWidth 32).setWidth 17 = D
    exact BitVec.setWidth_setWidth_of_le _ (by omega)
  · rcases writes_pump (by omega) hw with ⟨rfl, -⟩ | ⟨-, hk⟩
    · omega
    · cases hk

theorem latestWrite_static (ht : 23 < t) : LatestWrite (pump D S) 3 S t := by
  obtain ⟨-, -, -, h23⟩ := stages_pump (D := D) (S := S)
  refine ⟨23, by omega, ⟨?_, ?_⟩, rfl, ?_, fun _ _ _ => rfl, fun x h1 h2 hw => ?_⟩
  · exact (Axi.Slave.slvRegWren_of_accepted h23).trans rfl
  · rw [h23.2.2.2.2]
    rfl
  · show (S.setWidth 32).setWidth 17 = S
    exact BitVec.setWidth_setWidth_of_le _ (by omega)
  · rcases writes_pump (by omega) hw with ⟨-, hk⟩ | ⟨rfl, -⟩
    · cases hk
    · omega

/-- The state `n` cycles after cycle `19`. -/
structure Pumped (n : ℕ) (s : ObjDetAxiTop) : Prop where
  control : s.detector.control = ⟨.procFrame, true⟩
  slvReg0 : s.slave.slvReg0 = 1
  steady : s.detector.datapath.Steady
  diffCnt : s.detector.datapath.diffCnt.toNat = 3 + n
  matchCnt : s.detector.datapath.matchCnt.toNat = n

theorem pumped_nineteen : Pumped 0 (runOn (pump D S) 19) := by
  rw [runOn_pump_nineteen]
  refine ⟨?_, ?_, ⟨?_, ?_, ?_, ?_, ?_, ?_, ?_, ?_, ?_, ?_⟩, ?_, ?_⟩ <;> decide +kernel

/-- The FSM outputs of the run in `PROC_FRAME`. -/
theorem controlOut_pump {n : ℕ} (hs : Pumped n s) (ht : 19 ≤ t) :
    s.detector.controlOut (s.detectorIn (pump D S t)) =
      { Control.Out.default .procFrame with diffWren := true } := by
  have haddr : (pump D S t).objDetAddr = 0 := if_neg (by omega)
  have hin : (Detector.controlIn (s.detectorIn (pump D S t))).captureAddr = 0 := haddr
  have hw : (Detector.controlIn (s.detectorIn (pump D S t))).captureWren = true := rfl
  have hlt : (0 : BitVec 17).toNat < frameSize - 1 := by decide
  show (s.detector.control.settle true).comb (Detector.controlIn (s.detectorIn (pump D S t))) = _
  rw [hs.control]
  simp only [Control.settle_true, Control.comb, hin, hw, if_pos hlt]
  rfl

theorem pumping_pump {n : ℕ} (hs : Pumped n s) (ht : 19 ≤ t) :
    Datapath.Pumping (s.detector.datapathIn (s.detectorIn (pump D S t))) ∧
      (s.detector.datapathIn (s.detectorIn (pump D S t))).frameStart = false := by
  have ho : s.detector.controlOut (s.detectorIn (pump D S t)) = _ := controlOut_pump hs ht
  have hpix : (s.detectorIn (pump D S t)).capturePixel = true := by
    have hbw : s.bwThresIn (pump D S t) = 0 := by
      show (if (0 : BitVec 16).getLsbD 15 = false then s.slave.slvReg0.extractLsb' 1 8 else _) = 0
      rw [if_pos (by decide), hs.slvReg0]
      rfl
    show suspPixelIn (s.bwThresIn (pump D S t)) 0 = true
    rw [hbw]
    decide
  refine ⟨⟨?_, ?_, hpix, ?_, ?_, ?_, ?_, ?_, ?_⟩, ?_⟩
  · exact congrArg Control.Out.resetnDatapath ho
  · exact congrArg Control.initDone hs.control
  · exact congrArg Control.Out.refAddr ho
  · exact congrArg Control.Out.refWren ho
  · exact congrArg Control.Out.refBramEnable ho
  · exact congrArg Control.Out.diffAddr ho
  · exact congrArg Control.Out.diffWren ho
  · exact congrArg Control.Out.diffBramEnable ho
  · exact congrArg Control.Out.frameStart ho

/-- One more cycle: both counters go up. -/
theorem Pumped.step {n : ℕ} (hs : Pumped n s) (ht : 19 ≤ t) (hn : 3 + n + 1 < 2 ^ 17)
    (hw : ¬ s.slave.Writes (pumpMaster D S t) 0) : Pumped (n + 1) (s.clock (pump D S t)) := by
  obtain ⟨hp, hf⟩ : _ ∧ (s.detector.datapathIn (s.detectorIn (pump D S t))).frameStart = false := pumping_pump hs ht
  have ho : s.detector.controlOut (s.detectorIn (pump D S t)) = _ := controlOut_pump hs ht
  have hdp : (s.clock (pump D S t)).detector.datapath =
      s.detector.datapath.step (s.detector.datapathIn (s.detectorIn (pump D S t))) := rfl
  obtain ⟨hdc, hmc⟩ := hs.steady.counts hp hf
  refine ⟨?_, (if_neg hw).trans hs.slvReg0, ?_, ?_, ?_⟩
  · have hcomb : s.detector.control.comb (Detector.controlIn (s.detectorIn (pump D S t))) = _ := ho
    show s.detector.control.clock (Detector.controlIn (s.detectorIn (pump D S t))) = _
    unfold Control.clock
    rw [hcomb, hs.control]
    rfl
  · rw [hdp]
    exact hs.steady.step hp
  · rw [hdp, hdc, Datapath.bump_toNat (by rw [hs.diffCnt]; exact hn), hs.diffCnt]
    rfl
  · rw [hdp, hmc, Datapath.bump_toNat (by rw [hs.matchCnt]; omega), hs.matchCnt]
    rfl

theorem pumped_run {n : ℕ} (hn : 3 + n < 2 ^ 17) : Pumped n (runOn (pump D S) (19 + n)) := by
  induction n with
  | zero => exact pumped_nineteen
  | succ n ih =>
    refine (ih (by omega)).step (t := 19 + n) (by omega) hn ?_
    intro hw
    rcases writes_pump (by omega) hw with ⟨-, hk⟩ | ⟨-, hk⟩ <;> cases hk

/-- What the run shows at the counts `3 + n` and `n`. -/
theorem Compares.counts (h : Compares D S) {n : ℕ} (h4 : 4 < n) (hn : 3 + n < 2 ^ 17) :
    (D.toNat % 65536 < 3 + n ↔ D.toNat < 3 + n) ∧
      (D.toNat % 65536 < 3 + n ∧ S.toNat % 65536 < n ↔ D.toNat < 3 + n ∧ S.toNat < n) := by
  have hp : Pumped n (runOn (pump D S) (19 + n)) := pumped_run hn
  have hwD : LatestWrite (pump D S) 2 D (19 + n) := latestWrite_detection (by omega)
  have hwS : LatestWrite (pump D S) 3 S (19 + n) := latestWrite_static (by omega)
  have hd : (runOn (pump D S) (19 + n)).diffCnt.toNat = 3 + n := hp.diffCnt
  have hm : (runOn (pump D S) (19 + n)).matchCnt.toNat = n := hp.matchCnt
  obtain ⟨hdet, hmatch⟩ := outputs_of_latestWrite hwD hwS
  obtain ⟨hdet', hmatch', -⟩ := h _ _ hwD hwS
  rw [hd] at hdet hdet'
  rw [hd, hm] at hmatch hmatch'
  exact ⟨hdet.symm.trans hdet', hmatch.symm.trans hmatch'⟩

/-- With `diff_cnt = 65536` the programmed `D ≥ 65536` is not passed, but `object_detected` is high. -/
theorem not_compares_detection (hD : 65536 ≤ D.toNat) : ¬ Compares D S := by
  intro h
  have hlt := D.isLt
  have hcounts := (h.counts (n := 65533) (by omega) (by omega)).1
  omega

/-- With `match_cnt = 65536` the programmed `S ≥ 65536` is not passed, but `frame_match` is high. -/
theorem not_compares_static (hD : D.toNat < 65536) (hS : 65536 ≤ S.toNat) : ¬ Compares D S := by
  intro h
  have hlt := S.isLt
  have hcounts := (h.counts (n := 65536) (by omega) (by omega)).2
  omega

end Pump

/-- **When the detector compares with the programmed thresholds**: iff both fit the 16-bit ports. -/
theorem compares_iff (D S : BitVec 17) : Compares D S ↔ D.toNat < 65536 ∧ S.toNat < 65536 := by
  constructor
  · intro h
    by_cases hD : D.toNat < 65536
    · refine ⟨hD, ?_⟩
      by_contra hS
      exact not_compares_static hD (by omega) h
    · exact absurd h (not_compares_detection (by omega))
  · rintro ⟨hD, hS⟩
    exact compares_of_lt hD hS

/-- The detection threshold `65536` is compared as `0`. -/
theorem not_compares_65536 : ¬ Compares 65536 0 := not_compares_detection (by decide)

end ObjDetAxiTop

end SuspiciousPackage
