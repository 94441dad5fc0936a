import SuspiciousPackage.Detect.RefOnce
import SuspiciousPackage.Detect.ThresholdPorts
import Mathlib.Algebra.BigOperators.Intervals

/-!
# Detect.Reprogram — writing `SUSPICION_THRES` while the detector runs

`object_susp` asks for a level equal to the threshold, and the level stops climbing only below it.  So an alert is lost,
and no further match raises it, once a write puts the threshold below the level; `neverSilenced_iff`: this is the only
way, in every run with values up to `511`.
-/

namespace SuspiciousPackage

open Sync Finset

namespace ObjDetAxiTop

/-- The run from `s₀`. -/
def runFrom (s₀ : ObjDetAxiTop) (ins : ℕ → In) : ℕ → ObjDetAxiTop := run clock s₀ ins

def initDone (s : ObjDetAxiTop) : Bool := s.detector.initDone

def frameStart (i : In) (s : ObjDetAxiTop) : Bool := s.detector.frameStart (s.detectorIn i)

/-- The suspicion level. -/
def level (s : ObjDetAxiTop) : ℕ := s.detector.datapath.suspicion.toNat

/-- The threshold at the port of `obj_det_unit_top`. -/
def thres (s : ObjDetAxiTop) : ℕ := (s.slave.suspicionThres.setWidth 16).toNat

/-- `SUSPICION_THRES` after this edge. -/
def nextThres (i : In) (s : ObjDetAxiTop) : ℕ := (s.slave.writeReg i.s00Axi 4 s.slave.slvReg4).toNat

/-- **Re-programming cannot silence an alert**: after `init_done` the level never passes the threshold, so that it is
detected from the threshold on; and while the threshold is not raised and frames keep matching, an alert stays up, and
it comes up once the level and the matching frames since add up to the threshold. -/
structure NeverSilenced (ins : ℕ → In) (r : ℕ → ObjDetAxiTop) : Prop where
  le : ∀ t, (r t).initDone = true → (r t).level ≤ (r t).thres
  detects : ∀ t, (r t).initDone = true → (r t).thres ≤ (r t).level → (r t).objectSusp (ins t) = true
  stays : ∀ t t', t ≤ t' → (r t).initDone = true → (∀ z, t ≤ z → z < t' → (r (z + 1)).thres ≤ (r z).thres) →
    (∀ z, t ≤ z → z < t' → (r z).frameStart (ins z) = true → (r z).frameMatch (ins z) = true) →
    (r t).objectSusp (ins t) = true → (r t').objectSusp (ins t') = true
  rises : ∀ t t', t ≤ t' → (r t).initDone = true → (∀ z, t ≤ z → z < t' → (r (z + 1)).thres ≤ (r z).thres) →
    (∀ z, t ≤ z → z < t' → (r z).frameStart (ins z) = true → (r z).frameMatch (ins z) = true) →
    (r t').thres ≤ (r t).level + #{z ∈ Ico t t' | (r z).frameStart (ins z) = true} → (r t').objectSusp (ins t') = true

/-- The word that `SUSPICION_THRES` holds after this edge is not below the level; when the edge decides upon a frame it
need not be if the frame does not match, and is above a level that the match raises. -/
structure Covers (i : In) (s : ObjDetAxiTop) : Prop where
  idle : s.frameStart i = false → s.level ≤ s.nextThres i
  matching : s.frameStart i = true → s.frameMatch i = true →
    s.level ≤ s.nextThres i ∧ (s.level < s.thres → s.level < s.nextThres i)

/-! ## One edge -/

section Step

variable {s : ObjDetAxiTop} {i : In}

theorem objectSusp_iff : s.objectSusp i = true ↔ s.level = s.thres := by
  have h : s.objectSusp i = decide (s.level = s.thres) := by
    show (s.detector.datapath.settle (s.detector.controlOut (s.detectorIn i)).resetnDatapath).suspicionDetected _ = _
    cases (s.detector.controlOut (s.detectorIn i)).resetnDatapath <;> rfl
  rw [h, decide_eq_true_iff]

theorem thres_eq (h : s.slave.slvReg4.toNat ≤ 511) : s.thres = s.slave.slvReg4.toNat := by
  unfold thres ObjDetAxiSlave.suspicionThres
  rw [BitVec.toNat_setWidth, BitVec.toNat_setWidth, Nat.mod_eq_of_lt (a := s.slave.slvReg4.toNat) (by omega)]
  exact Nat.mod_eq_of_lt (by omega)

theorem slvReg4_clock (hi : i.s00AxiAresetn = true) : (s.clock i).slave.slvReg4.toNat = s.nextThres i := by
  show (s.slave.clock i.s00AxiAresetn i.s00Axi (s.status i)).slvReg4.toNat = _
  rw [hi]
  rfl

/-- Without a write the threshold stays. -/
theorem nextThres_of_not_writes (h : ¬ s.slave.Writes i.s00Axi 4) : s.nextThres i = s.slave.slvReg4.toNat :=
  congrArg BitVec.toNat (if_neg h)

/-- `init_done` is only high past `WAIT_START`. -/
def Started (s : ObjDetAxiTop) : Prop :=
  s.initDone = true → ¬ (s.detector.control.currState = .reset ∨ s.detector.control.currState = .waitStart)

theorem Started.clock (hi : i.resetn = true) (h : s.Started) : (s.clock i).Started := by
  have hres : (s.detectorIn i).resetn = true := hi
  intro hd hoff
  have hd' : (s.detector.clock (s.detectorIn i)).initDone = true := hd
  have hoff' : (s.detector.clock (s.detectorIn i)).control.currState = .reset ∨
      (s.detector.clock (s.detectorIn i)).control.currState = .waitStart := hoff
  rw [Detector.currState_clock hres] at hoff'
  obtain ⟨hno, hoff'⟩ := Control.comb_nextState_off hoff'
  rw [Detector.initDone_clock hres, hno, Bool.false_or] at hd'
  exact h hd' hoff'

theorem initDone_clock (hi : i.resetn = true) (hd : s.initDone = true) : (s.clock i).initDone = true := by
  have hres : (s.detectorIn i).resetn = true := hi
  show (s.detector.clock (s.detectorIn i)).initDone = true
  rw [Detector.initDone_clock hres, show s.detector.initDone = true from hd, Bool.or_true]

theorem path_suspicion : (s.detector.path (s.detectorIn i)).suspicion = s.detector.datapath.suspicion := by
  show (s.detector.datapath.settle (s.detector.controlOut (s.detectorIn i)).resetnDatapath).suspicion = _
  cases (s.detector.controlOut (s.detectorIn i)).resetnDatapath <;> rfl

/-- The decision about a frame; the level does not wrap. -/
theorem nextSuspicion_path (hT : s.thres ≤ 511) :
    ((s.detector.path (s.detectorIn i)).nextSuspicion (s.detector.datapathIn (s.detectorIn i))).toNat =
      if s.frameMatch i = true then (if s.level < s.thres then s.level + 1 else s.level) else 0 := by
  have hmatch : (s.detector.path (s.detectorIn i)).frameMatch (s.detector.datapathIn (s.detectorIn i)) =
      s.frameMatch i := rfl
  unfold Datapath.nextSuspicion
  rw [path_suspicion, hmatch]
  cases s.frameMatch i
  · rfl
  · rw [if_neg (by simp), if_pos rfl]
    by_cases hlt : s.level < s.thres
    · have hadd : (s.detector.datapath.suspicion + 1).toNat = s.level + 1 := by
        rw [BitVec.toNat_add]
        exact Nat.mod_eq_of_lt (show s.level + 1 < 512 by omega)
      rw [if_pos hlt]
      exact (congrArg BitVec.toNat (if_pos hlt)).trans hadd
    · rw [if_neg hlt]
      exact congrArg BitVec.toNat (if_neg hlt)

theorem level_eq : (s.clock i).level =
    (if (s.detector.controlOut (s.detectorIn i)).resetnDatapath = false ∨ s.initDone = false then 0
      else if s.frameStart i then
        (s.detector.path (s.detectorIn i)).nextSuspicion (s.detector.datapathIn (s.detectorIn i))
      else s.detector.datapath.suspicion).toNat := by
  rw [← path_suspicion]
  rfl

theorem level_of_not_initDone (hd : s.initDone = false) : (s.clock i).level = 0 := by
  rw [level_eq, if_pos (Or.inr hd)]
  rfl

/-- **What an edge does to the level.** -/
theorem level_clock (hi : i.resetn = true) (h : s.Started) (hd : s.initDone = true) (hT : s.thres ≤ 511) :
    (s.clock i).level =
      if s.frameStart i = true then
        if s.frameMatch i = true then (if s.level < s.thres then s.level + 1 else s.level) else 0
      else s.level := by
  have hno : ¬ ((s.detector.controlOut (s.detectorIn i)).resetnDatapath = false ∨ s.initDone = false) := by
    rintro (hr | hd')
    · rw [Detector.controlOut_of_resetn hi] at hr
      exact h hd (Control.comb_resetnDatapath hr)
    · exact absurd (hd.symm.trans hd') (by simp)
  rw [level_eq, if_neg hno]
  by_cases hf : s.frameStart i = true
  · rw [if_pos hf, if_pos hf]
    exact nextSuspicion_path hT
  · rw [if_neg hf, if_neg hf]
    rfl

/-- The level is covered by the threshold after the edge. -/
theorem covers_iff (hi : i.resetn = true) (h : s.Started) (hd : s.initDone = true) (hT : s.thres ≤ 511) :
    s.Covers i ↔ (s.clock i).level ≤ s.nextThres i := by
  rw [level_clock hi h hd hT]
  by_cases hf : s.frameStart i = true
  · by_cases hm : s.frameMatch i = true
    · rw [if_pos hf, if_pos hm]
      constructor
      · intro hc
        obtain ⟨h1, h2⟩ := hc.matching hf hm
        split_ifs with hlt
        · exact h2 hlt
        · exact h1
      · intro hnew
        refine ⟨fun hno => absurd hf (by simp [hno]), fun _ _ => ?_⟩
        split_ifs at hnew with hlt
        · exact ⟨by omega, fun _ => hnew⟩
        · exact ⟨hnew, fun h => absurd h hlt⟩
    · rw [if_pos hf, if_neg hm]
      refine iff_of_true ⟨fun hno => absurd hf (by simp [hno]), fun _ h => absurd h hm⟩ (Nat.zero_le _)
  · rw [if_neg hf]
    constructor
    · intro hc
      exact hc.idle (by simpa using hf)
    · intro hnew
      exact ⟨fun _ => hnew, fun h => absurd h hf⟩

end Step

/-! ## Runs -/

section Run

variable {s₀ : ObjDetAxiTop} {ins : ℕ → In}

/-- A run with the resets high, from a state without a reference, `SUSPICION_THRES` holding values up to `511`. -/
structure Programmed (s₀ : ObjDetAxiTop) (ins : ℕ → In) : Prop where
  started : s₀.Started
  initDone : s₀.initDone = false
  resetn : ∀ t, (ins t).resetn = true
  aresetn : ∀ t, (ins t).s00AxiAresetn = true
  slvReg4 : ∀ t, (runFrom s₀ ins t).slave.slvReg4.toNat ≤ 511

namespace Programmed

variable (h : Programmed s₀ ins)
include h

theorem started_run (t : ℕ) : (runFrom s₀ ins t).Started := by
  induction t with
  | zero => exact h.started
  | succ t ih => exact ih.clock (h.resetn t)

theorem thres_run (t : ℕ) : (runFrom s₀ ins t).thres = (runFrom s₀ ins t).slave.slvReg4.toNat := thres_eq (h.slvReg4 t)

theorem thres_le (t : ℕ) : (runFrom s₀ ins t).thres ≤ 511 := by
  rw [h.thres_run]
  exact h.slvReg4 t

theorem thres_succ (t : ℕ) : (runFrom s₀ ins (t + 1)).thres = (runFrom s₀ ins t).nextThres (ins t) := by
  rw [h.thres_run]
  exact slvReg4_clock (h.aresetn t)

theorem initDone_mono {t u : ℕ} (htu : t ≤ u) (hd : (runFrom s₀ ins t).initDone = true) :
    (runFrom s₀ ins u).initDone = true := by
  induction u, htu using Nat.le_induction with
  | base => exact hd
  | succ u _ ih => exact initDone_clock (h.resetn u) ih

theorem level_succ {t : ℕ} (hd : (runFrom s₀ ins t).initDone = true) :
    (runFrom s₀ ins (t + 1)).level =
      if (runFrom s₀ ins t).frameStart (ins t) = true then
        if (runFrom s₀ ins t).frameMatch (ins t) = true then
          (if (runFrom s₀ ins t).level < (runFrom s₀ ins t).thres then (runFrom s₀ ins t).level + 1
            else (runFrom s₀ ins t).level)
        else 0
      else (runFrom s₀ ins t).level := level_clock (h.resetn t) (h.started_run t) hd (h.thres_le t)

/-- **The level never passes the threshold** iff every write covers it. -/
theorem le_iff : (∀ t, (runFrom s₀ ins t).initDone = true → (runFrom s₀ ins t).level ≤ (runFrom s₀ ins t).thres) ↔
    ∀ t, (runFrom s₀ ins t).initDone = true → (runFrom s₀ ins t).slave.Writes (ins t).s00Axi 4 →
      (runFrom s₀ ins t).Covers (ins t) := by
  have hcov : ∀ t, (runFrom s₀ ins t).initDone = true → ((runFrom s₀ ins t).Covers (ins t) ↔
      (runFrom s₀ ins (t + 1)).level ≤ (runFrom s₀ ins (t + 1)).thres) := by
    intro t hd
    rw [h.thres_succ]
    exact covers_iff (h.resetn t) (h.started_run t) hd (h.thres_le t)
  constructor
  · intro hle t hd _
    exact (hcov t hd).mpr (hle (t + 1) (h.initDone_mono (Nat.le_succ t) hd))
  · intro hw t
    induction t with
    | zero => exact fun hd => absurd (h.initDone.symm.trans hd) (by simp)
    | succ t ih =>
      intro _
      cases hd : (runFrom s₀ ins t).initDone
      · have hzero : (runFrom s₀ ins (t + 1)).level = 0 := level_of_not_initDone hd
        rw [hzero]
        exact Nat.zero_le _
      · have hle := ih hd
        by_cases hwr : (runFrom s₀ ins t).slave.Writes (ins t).s00Axi 4
        · exact (hcov t hd).mp (hw t hd hwr)
        · rw [h.thres_succ, nextThres_of_not_writes hwr, ← h.thres_run, h.level_succ hd]
          split_ifs <;> omega

/-- While the threshold is not raised and frames keep matching, the level gains one with each of them up to the
threshold. -/
theorem min_le_level {t t' : ℕ} (htt : t ≤ t') (hd : (runFrom s₀ ins t).initDone = true) {T : ℕ}
    (hT : ∀ z, t ≤ z → z < t' → T ≤ (runFrom s₀ ins z).thres)
    (hm : ∀ z, t ≤ z → z < t' → (runFrom s₀ ins z).frameStart (ins z) = true →
      (runFrom s₀ ins z).frameMatch (ins z) = true) :
    min T ((runFrom s₀ ins t).level + #{z ∈ Ico t t' | (runFrom s₀ ins z).frameStart (ins z) = true}) ≤
      (runFrom s₀ ins t').level := by
  induction t', htt using Nat.le_induction with
  | base => simp
  | succ t' htt ih =>
    have hprev := ih (fun z h1 h2 => hT z h1 (by omega)) fun z h1 h2 => hm z h1 (by omega)
    have hTt := hT t' htt (Nat.lt_succ_self t')
    rw [Finset.card_filter] at hprev ⊢
    rw [Finset.sum_Ico_succ_top htt, h.level_succ (h.initDone_mono htt hd)]
    by_cases hf : (runFrom s₀ ins t').frameStart (ins t') = true
    · rw [if_pos hf, if_pos hf, if_pos (hm t' htt (Nat.lt_succ_self t') hf)]
      split_ifs <;> omega
    · rw [if_neg hf, if_neg hf]
      omega

end Programmed

/-- A threshold that is not raised. -/
theorem thres_antitone {r : ℕ → ObjDetAxiTop} {t t' : ℕ} (htt : t ≤ t')
    (h : ∀ z, t ≤ z → z < t' → (r (z + 1)).thres ≤ (r z).thres) : (r t').thres ≤ (r t).thres := by
  induction t', htt using Nat.le_induction with
  | base => exact le_rfl
  | succ t' htt ih =>
    exact (h t' htt (Nat.lt_succ_self t')).trans (ih fun z h1 h2 => h z h1 (by omega))

theorem Programmed.covered_iff (h : Programmed s₀ ins) : NeverSilenced ins (runFrom s₀ ins) ↔
    ∀ t, (runFrom s₀ ins t).initDone = true → (runFrom s₀ ins t).slave.Writes (ins t).s00Axi 4 →
      (runFrom s₀ ins t).Covers (ins t) := by
  rw [← h.le_iff]
  constructor
  · intro hn
    exact hn.le
  · intro hle
    have hrises : ∀ t t', t ≤ t' → (runFrom s₀ ins t).initDone = true →
        (∀ z, t ≤ z → z < t' → (runFrom s₀ ins (z + 1)).thres ≤ (runFrom s₀ ins z).thres) →
        (∀ z, t ≤ z → z < t' → (runFrom s₀ ins z).frameStart (ins z) = true →
          (runFrom s₀ ins z).frameMatch (ins z) = true) →
        (runFrom s₀ ins t').thres ≤
          (runFrom s₀ ins t).level + #{z ∈ Ico t t' | (runFrom s₀ ins z).frameStart (ins z) = true} →
        (runFrom s₀ ins t').objectSusp (ins t') = true := by
      intro t t' htt hd hanti hm hsum
      have hT : ∀ z, t ≤ z → z < t' → (runFrom s₀ ins t').thres ≤ (runFrom s₀ ins z).thres :=
        fun z h1 h2 => thres_antitone h2.le fun y h3 h4 => hanti y (by omega) h4
      have hmin := h.min_le_level htt hd hT hm
      have hle' := hle t' (h.initDone_mono htt hd)
      rw [Nat.min_eq_left hsum] at hmin
      exact objectSusp_iff.mpr (Nat.le_antisymm hle' hmin)
    refine ⟨hle, fun t hd hge => objectSusp_iff.mpr (Nat.le_antisymm (hle t hd) hge), ?_, hrises⟩
    intro t t' htt hd hanti hm hs
    refine hrises t t' htt hd hanti hm ?_
    rw [objectSusp_iff.mp hs]
    exact (thres_antitone htt hanti).trans (Nat.le_add_right _ _)

end Run

/-- **When re-programming cannot silence an alert.**  From any reset, with `SUSPICION_THRES` holding values up to `511`,
on any frames and any other register writes: iff every write to `SUSPICION_THRES` after `init_done` covers the level. -/
theorem neverSilenced_iff (s : ObjDetAxiTop) (i : In) (hi : i.resetn = false) (ins : ℕ → In) (r : ℕ → ObjDetAxiTop)
    (hr : r = runFrom (s.clock i) ins) (hres : ∀ t, (ins t).resetn = true ∧ (ins t).s00AxiAresetn = true)
    (h511 : ∀ t, (r t).slave.slvReg4.toNat ≤ 511) :
    NeverSilenced ins r ↔
      ∀ t, (r t).initDone = true → (r t).slave.Writes (ins t).s00Axi 4 → (r t).Covers (ins t) := by
  subst hr
  have hd : (s.clock i).initDone = false := (Detector.inv_reset (s := s.detector) (i := s.detectorIn i) hi).2
  have hstart : (s.clock i).Started := fun h => absurd (hd.symm.trans h) (by simp)
  exact Programmed.covered_iff ⟨hstart, hd, fun t => (hres t).1, fun t => (hres t).2, h511⟩

/-! ### An alert, and a write of `v` -/

/-- `pump` with two short frames that match, in the cycles `28` and `39`; `SUSPICION_THRES` is written with `2` before the
first and with `v` in cycle `43`, during the alert. -/
def reprogramMaster (v : BitVec 32) (t : ℕ) : Axi.Master 5 :=
  { pumpMaster 0 0 t with
    awaddr := if t < 24 then (pumpMaster 0 0 t).awaddr else 16
    awvalid := (pumpMaster 0 0 t).awvalid || decide (t = 25 ∨ t = 26 ∨ t = 42 ∨ t = 43)
    wdata := if t < 24 then (pumpMaster 0 0 t).wdata else if t < 42 then 2 else v
    wvalid := (pumpMaster 0 0 t).wvalid || decide (t = 25 ∨ t = 26 ∨ t = 42 ∨ t = 43) }

def reprogram (v : BitVec 32) (t : ℕ) : In :=
  { pump 0 0 t with
    s00Axi := reprogramMaster v t
    objDetAddr := if t = 11 ∨ t = 26 ∨ t = 37 then 76799 else 0 }

/-- Before the run both resets are low. -/
def reprogramReset (v : BitVec 32) : In := { reprogram v 0 with resetn := false, s00AxiAresetn := false }

section Reprogram

variable {v : BitVec 32}

theorem clock_reprogramReset : init.clock (reprogramReset v) = init := rfl

/-- From cycle `44` on nothing is written. -/
theorem not_writes_reprogram {s : ObjDetAxiTop} {t k : ℕ} (ht : 44 ≤ t) : ¬ s.slave.Writes (reprogramMaster v t) k := by
  rintro ⟨hw, -⟩
  have hv : (reprogramMaster v t).wvalid = false := by
    have h1 : (pumpMaster 0 0 t).wvalid = false := decide_eq_false (by omega)
    have h2 : decide (t = 25 ∨ t = 26 ∨ t = 42 ∨ t = 43) = false := decide_eq_false (by omega)
    show ((pumpMaster 0 0 t).wvalid || decide (t = 25 ∨ t = 26 ∨ t = 42 ∨ t = 43)) = false
    rw [h1, h2]
    rfl
  simp [Axi.Slave.slvRegWren, hv] at hw

theorem slvReg4_reprogram (h : ∀ t < 45, (runFrom init (reprogram v) t).slave.slvReg4.toNat ≤ 511) (t : ℕ) :
    (runFrom init (reprogram v) t).slave.slvReg4.toNat ≤ 511 := by
  by_cases ht : t < 45
  · exact h t ht
  · induction t with
    | zero => omega
    | succ t ih =>
      have hclk : (runFrom init (reprogram v) (t + 1)).slave.slvReg4.toNat =
          (runFrom init (reprogram v) t).nextThres (reprogram v t) := slvReg4_clock rfl
      rw [hclk, nextThres_of_not_writes (not_writes_reprogram (by omega))]
      by_cases h45 : t < 45
      · exact h t h45
      · exact ih h45

end Reprogram

/-- Raising the threshold to `3` during the alert covers the level. -/
theorem neverSilenced_three : NeverSilenced (reprogram 3) (runFrom init (reprogram 3)) := by
  refine (neverSilenced_iff init (reprogramReset 3) rfl (reprogram 3) _ (by rw [clock_reprogramReset])
    (fun _ => ⟨rfl, rfl⟩) (slvReg4_reprogram (by decide +kernel))).mpr ?_
  intro t _ hw
  have ht : t < 44 := by
    by_contra h
    exact not_writes_reprogram (by omega) hw
  have htwo : ∀ t < 44, (runFrom init (reprogram 3) t).slave.Writes (reprogram 3 t).s00Axi 4 → t = 26 ∨ t = 43 := by
    decide +kernel
  rcases htwo t ht hw with rfl | rfl
  · exact ⟨fun _ => by decide +kernel, fun hf => absurd hf (by decide +kernel)⟩
  · exact ⟨fun _ => by decide +kernel, fun hf => absurd hf (by decide +kernel)⟩

/-- Lowering it to `1` clears the alert. -/
theorem alert_silenced :
    (∀ t, (runFrom init (reprogram 1) t).slave.slvReg4.toNat ≤ 511) ∧
    (runFrom init (reprogram 1) 43).objectSusp (reprogram 1 43) = true ∧
    (runFrom init (reprogram 1) 44).level = 2 ∧ (runFrom init (reprogram 1) 44).thres = 1 ∧
    (runFrom init (reprogram 1) 44).objectSusp (reprogram 1 44) = false ∧
    ¬ NeverSilenced (reprogram 1) (runFrom init (reprogram 1)) := by
  have hlevel : (runFrom init (reprogram 1) 44).level = 2 := by decide +kernel
  have hthres : (runFrom init (reprogram 1) 44).thres = 1 := by decide +kernel
  refine ⟨slvReg4_reprogram (by decide +kernel), by decide +kernel, hlevel, hthres, by decide +kernel, fun h => ?_⟩
  have hle := h.le 44 (by decide +kernel)
  omega

end ObjDetAxiTop

end SuspiciousPackage
