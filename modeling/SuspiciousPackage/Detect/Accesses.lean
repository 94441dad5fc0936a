import SuspiciousPackage.Camera.RateLimit
import SuspiciousPackage.Detect.BackToBack

/-!
# Detect.Accesses — the addresses presented to the memories

All memories are `frameSize` deep.  The FSM never addresses its two RAMs beyond that, whatever address it is given
(`comb_refAddr_lt`, `comb_diffAddr_lt`), and neither does `obj_det_addr`.  `tdata_addr`, the read address of the
immediate frame buffer, leaves it in the last two cycles of every transfer, so the accesses stay inside as long as no
transfer comes to its end (`accesses_inside_iff`).
-/

namespace SuspiciousPackage

open Sync

/-! ## The first transfer after a reset -/

namespace Downsampler

variable {ins : ℕ → In} {t : ℕ}

/-- The camera address is at the end of a frame, and enough `vsync` cycles have passed since the reset; `vsync_cnt`
counts them modulo `2 ^ 32`. -/
def Due (ins : ℕ → In) (t : ℕ) : Prop :=
  (ins t).captureAddr.toNat = frameSize - 1 ∧
    4 * (ins t).decimationRate.toNat ≤ Nat.count (fun z => (ins z).vsync = true) t % 2 ^ 32

theorem nextVsyncCnt_toNat {i : In} {d : Downsampler} :
    (nextVsyncCnt i d).toNat = (d.vsyncCnt.toNat + if i.vsync = true then 1 else 0) % 2 ^ 32 := by
  have hlt := d.vsyncCnt.isLt
  unfold nextVsyncCnt
  split_ifs with hv
  · exact BitVec.toNat_add ..
  · rw [Nat.add_zero, Nat.mod_eq_of_lt hlt]

/-- Up to the first transfer `vsync_cnt` has counted all `vsync` cycles. -/
theorem vsyncCnt_of_idle (hidle : ∀ z < t, (runOn ins z).transfer = false) :
    (runOn ins t).vsyncCnt.toNat = Nat.count (fun z => (ins z).vsync = true) t % 2 ^ 32 := by
  induction t with
  | zero => rfl
  | succ t ih =>
    rw [runOn_succ, vsyncCnt_clock_idle (inv_runOn ins t) (hidle t (Nat.lt_succ_self t)), nextVsyncCnt_toNat,
      ih fun z hz => hidle z (by omega), Nat.count_succ, Nat.mod_add_mod]

theorem trigger_iff_due (hidle : ∀ z ≤ t, (runOn ins z).transfer = false) :
    Trigger (ins t) (runOn ins t) ↔ Due ins t := by
  unfold Trigger Due
  rw [maxVsyncCnt_toNat, vsyncCnt_of_idle fun z hz => hidle z hz.le]
  constructor
  · rintro ⟨hcnt, -, haddr⟩
    exact ⟨haddr, hcnt⟩
  · rintro ⟨haddr, hcnt⟩
    exact ⟨hcnt, hidle t le_rfl, haddr⟩

/-- No transfer is ever due iff there is none. -/
theorem idle_iff : (∀ t, (runOn ins t).transfer = false) ↔ ∀ t, ¬ Due ins t := by
  constructor
  · intro hidle t hdue
    have hnext := hidle (t + 1)
    rw [runOn_succ, clock_trigger ((trigger_iff_due fun z _ => hidle z).mpr hdue)] at hnext
    cases hnext
  · intro hno t
    induction t using Nat.strong_induction_on with
    | _ t ih =>
      cases t with
      | zero => rfl
      | succ t =>
        have hidle : ∀ z ≤ t, (runOn ins z).transfer = false := fun z hz => ih z (by omega)
        by_contra hhigh
        rw [Bool.not_eq_false] at hhigh
        exact hno t ((trigger_iff_due hidle).mp (trigger_of_start (hidle t le_rfl) hhigh))

end Downsampler

/-! ## The addresses of the FSM -/

namespace Control

variable {i : In} {c : Control}

/-- An address that the FSM passes on is below the last one, and the default is `0`. -/
theorem comb_refAddr_lt : (c.comb i).refAddr.toNat < frameSize := by
  have hfs := frameSize_eq
  cases hs : c.currState <;> simp only [comb, hs] <;> (try split_ifs) <;> simp <;> omega

theorem comb_diffAddr_lt : (c.comb i).diffAddr.toNat < frameSize := by
  have hfs := frameSize_eq
  cases hs : c.currState <;> simp only [comb, hs] <;> (try split_ifs) <;> simp <;> omega

end Control

namespace System

/-- The addresses presented by the FSM, for any inputs it may get, and `obj_det_addr`. -/
structure DetectorInside (s : System) : Prop where
  ref : ∀ i, (s.detector.control.comb i).refBramEnable = true → (s.detector.control.comb i).refAddr.toNat < frameSize
  diff : ∀ i,
    (s.detector.control.comb i).diffBramEnable = true → (s.detector.control.comb i).diffAddr.toNat < frameSize
  objDet : s.downsampler.objDetWren = true → s.downsampler.objDetAddr.toNat < frameSize

/-- All addresses presented with their port enabled are inside the memories. -/
structure Inside (s : System) : Prop extends DetectorInside s where
  tdata : s.downsampler.objDetWren = true → s.downsampler.tdataAddr.toNat < frameSize

section State

variable {s : System}

theorem detectorInside (h : s.downsampler.Inv) : DetectorInside s where
  ref _ _ := Control.comb_refAddr_lt
  diff _ _ := Control.comb_diffAddr_lt
  objDet hw := by
    obtain ⟨c, hb⟩ := (objDetWren_iff h).mp hw
    have hle := Downsampler.beat_le h hb
    have hfs := frameSize_eq
    rw [objDetAddr_of_beat h hb]
    omega

/-- `tdata_addr` is inside except in the last two cycles of a transfer. -/
theorem inside_iff_beat (h : s.downsampler.Inv) : Inside s ↔ ∀ c, s.beat = some c → c < frameSize := by
  constructor
  · intro hin c hb
    have hlt := hin.tdata ((objDetWren_iff h).mpr ⟨c, hb⟩)
    rwa [Downsampler.tdataAddr_eq h hb] at hlt
  · intro hlt
    refine ⟨detectorInside h, fun hw => ?_⟩
    obtain ⟨c, hb⟩ := (objDetWren_iff h).mp hw
    rw [Downsampler.tdataAddr_eq h hb]
    exact hlt c hb

end State

/-! ## Runs from a reset -/

section Run

variable {s : System} {i : In} {ins : ℕ → In} {t : ℕ}

theorem downsampler_runFrom (t : ℕ) : (runFrom (s.clock false i) ins t).downsampler =
    Downsampler.runOn (fun z => downsamplerIn (ins z)) t :=
  run_proj (f := System.downsampler) (fun _ => rfl) t

/-- A transfer is triggered in cycle `t`. -/
def Triggers (ins : ℕ → In) (r : ℕ → System) (t : ℕ) : Prop :=
  Downsampler.Trigger (downsamplerIn (ins t)) (r t).downsampler

theorem beat_zero_iff : (runFrom (s.clock false i) ins (t + 1)).beat = some 0 ↔
    Triggers ins (runFrom (s.clock false i) ins) t := by
  have h := sound_reset s i
  have hinv := (sound_runFrom h ins t).inv
  constructor
  · intro hb
    have hbeg := (begins_iff h rfl).mpr hb
    have hlow := hbeg.2 t rfl
    have hhigh := hbeg.1
    unfold Triggers
    rw [downsampler_runFrom] at hlow hhigh ⊢
    have htr := Downsampler.trigger_of_start hlow hhigh
    exact htr
  · intro htr
    rw [runFrom_succ]
    exact Downsampler.beat_of_trigger hinv htr

/-- The cycle in which the transfer in progress was triggered. -/
theorem beat_iff {c : ℕ} (hc : c ≤ frameSize + 1) : (runFrom (s.clock false i) ins t).beat = some c ↔
    ∃ u, t = u + 1 + c ∧ Triggers ins (runFrom (s.clock false i) ins) u := by
  have h := sound_reset s i
  constructor
  · intro hb
    obtain ⟨t₀, rfl, hb₀⟩ := beat_back h rfl hb
    cases t₀ with
    | zero => cases hb₀
    | succ u => exact ⟨u, rfl, beat_zero_iff.mp hb₀⟩
  · rintro ⟨u, rfl, htr⟩
    exact transfer_beats h (beat_zero_iff.mpr htr) c hc

/-- An access leaves the memory exactly at the end of a transfer. -/
theorem inside_iff : Inside (runFrom (s.clock false i) ins t) ↔
    ∀ u, Triggers ins (runFrom (s.clock false i) ins) u → t ≠ u + frameSize + 1 ∧ t ≠ u + frameSize + 2 := by
  have h := sound_runFrom (sound_reset s i) ins t
  rw [inside_iff_beat h.inv]
  constructor
  · intro hlt u htr
    constructor
    · intro ht
      exact absurd (hlt frameSize ((beat_iff (by omega)).mpr ⟨u, by omega, htr⟩)) (by omega)
    · intro ht
      exact absurd (hlt (frameSize + 1) ((beat_iff le_rfl).mpr ⟨u, by omega, htr⟩)) (by omega)
  · intro hno c hb
    have hle := Downsampler.beat_le h.inv hb
    obtain ⟨u, rfl, htr⟩ := (beat_iff hle).mp hb
    obtain ⟨h1, h2⟩ := hno u htr
    omega

/-- **Accesses**, in any run from a reset: the addresses for the detector's RAMs and `obj_det_addr` are always inside;
an address is outside exactly `frameSize + 1` and `frameSize + 2` cycles after the trigger of a transfer; so all
accesses of the run stay inside iff no transfer is ever due. -/
theorem accesses_inside_iff (s : System) (i : In) (ins : ℕ → In) :
    (∀ t, DetectorInside (runFrom (s.clock false i) ins t)) ∧
    (∀ t, Inside (runFrom (s.clock false i) ins t) ↔
      ∀ u, Triggers ins (runFrom (s.clock false i) ins) u → t ≠ u + frameSize + 1 ∧ t ≠ u + frameSize + 2) ∧
    ((∀ t, Inside (runFrom (s.clock false i) ins t)) ↔ ∀ t, ¬ Downsampler.Due (fun z => downsamplerIn (ins z)) t) := by
  refine ⟨fun t => detectorInside (sound_runFrom (sound_reset s i) ins t).inv, fun t => inside_iff, ?_⟩
  rw [← Downsampler.idle_iff]
  constructor
  · intro hin t
    -- a first transfer would come to its end
    by_contra hhigh
    have hrun : (runFrom (s.clock false i) ins t).downsampler = _ := downsampler_runFrom t
    rw [Bool.not_eq_false, ← hrun] at hhigh
    have hb : (runFrom (s.clock false i) ins t).beat = some _ := Downsampler.beat_eq_some.mpr ⟨hhigh, rfl⟩
    obtain ⟨u, -, htr⟩ := (beat_iff (Downsampler.beat_le (sound_runFrom (sound_reset s i) ins t).inv hb)).mp hb
    exact (inside_iff.mp (hin (u + frameSize + 1)) u htr).1 rfl
  · intro hidle t
    apply inside_iff.mpr
    intro u htr
    have hhigh := (Downsampler.beat_eq_some.mp (beat_zero_iff.mpr htr)).1
    rw [downsampler_runFrom, hidle (u + 1)] at hhigh
    cases hhigh

end Run

/-- The first transfer of black frames reads beyond the frame buffer. -/
theorem tdataAddr_outside :
    ¬ ∀ t, Inside (runFrom (init.clock false (blackFrames 0)) blackFrames t) := by
  intro hin
  have h := (inside_iff_beat (sound_runFrom (sound_reset init (blackFrames 0)) blackFrames _).inv).mp
    (hin (beginCycle 0 + frameSize))
  rw [clock_reset_init] at h
  exact absurd (h frameSize (transfer_beats sound_init (beat_beginCycle _ _ 0) frameSize (by omega))) (by omega)

end System

end SuspiciousPackage
