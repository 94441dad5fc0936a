import SuspiciousPackage.Alert.Ov7670Top
import SuspiciousPackage.Detect.WholeFrame

/-!
# Alert.Evidence — the image frozen by an alert

The alert decided upon in `START_FRAME` rises in cycle `2` of the next transfer, whose cycles `0` and `1` have by
then written cell `0` with the lead-in words.  So in the frozen image cell `0` holds the word the frame buffer gave
beyond its depth at the end of the transfer before (`kept_zero_of_alerted`), the other cells the pixels of that
transfer, unless an earlier alert shut the gate (`kept_pos_of_alerted`), which takes a change of the suspicion
threshold during the transfer (`susp_low_of_fixed`).  `frozen_image_iff` is the exact condition under which every cell
still has the right content; `frozen_image_never` says that a beat of the next transfer is in cell `0` all the same.
-/

namespace SuspiciousPackage

open Sync

/-! ## The last completed transfer -/

namespace System

variable {s₀ : System} {ins : ℕ → In}

/-- The transfer from cycle `t₀` on is the last one that was complete before cycle `t`. -/
def LastTransfer (r : ℕ → System) (t₀ t : ℕ) : Prop := Transferred r t₀ t ∧ ∀ x, Transferred r x t → x ≤ t₀

theorem exists_lastTransfer {r : ℕ → System} {x t : ℕ} (h : Transferred r x t) : ∃ t₀, LastTransfer r t₀ t := by
  classical
  have hx : x ≤ t := by
    have := h.2
    omega
  refine ⟨Nat.findGreatest (Transferred r · t) t, Nat.findGreatest_spec (P := (Transferred r · t)) hx h, ?_⟩
  intro y hy
  have hyt : y ≤ t := by
    have := hy.2
    omega
  exact Nat.le_findGreatest hyt hy

/-- With `init_done` high, the captured transfer is complete. -/
theorem transferred_of_initDone (hinv : s₀.downsampler.Inv) (h0 : s₀.InPhase .off) (hb0 : s₀.beat = none) {t : ℕ}
    (hd : (runFrom s₀ ins t).initDone = true) : ∃ x, Transferred (runFrom s₀ ins) x t := by
  classical
  have hex : ∃ u, (runFrom s₀ ins u).initDone = true := ⟨t, hd⟩
  have hat : InitDoneAt (runFrom s₀ ins) (Nat.find hex) := by
    refine ⟨Nat.find_spec hex, fun u hu => ?_⟩
    have := Nat.find_min hex hu
    rwa [Bool.not_eq_true] at this
  have hle : Nat.find hex ≤ t := Nat.find_min' hex hd
  obtain ⟨x, hx, hb, -⟩ := captured_ref hinv h0 hb0 hat
  exact ⟨x, (begins_iff ⟨hinv, _, h0⟩ hb0).mpr hb, by omega⟩

/-- From the last completed transfer to the next one, beginning in cycle `t₁`, the downsampler is idle. -/
theorem idle_of_lastTransfer (h : s₀.Sound) (hb0 : s₀.beat = none) {t₀ t₁ : ℕ}
    (hb : (runFrom s₀ ins t₁).beat = some 0) (hl : LastTransfer (runFrom s₀ ins) t₀ (t₁ + 2)) :
    t₀ + frameSize + 2 ≤ t₁ ∧
      ∀ z, t₀ + frameSize + 2 ≤ z → z < t₁ → (runFrom s₀ ins z).beat = none := by
  have hfs := frameSize_eq
  obtain ⟨⟨hbeg, hcomp⟩, hlast⟩ := hl
  -- a transfer that begins before `t₁` is over in `t₁`
  have hover : ∀ x < t₁, (runFrom s₀ ins x).beat = some 0 → x + frameSize + 2 ≤ t₁ := by
    intro x hx hbx
    by_contra hlt
    have hc := transfer_beats h hbx (t₁ - x) (by omega)
    rw [show x + (t₁ - x) = t₁ by omega, hb] at hc
    have := Option.some.inj hc
    omega
  have hbeg' := (begins_iff h hb0).mp hbeg
  have hle : t₀ + frameSize + 2 ≤ t₁ := hover t₀ (by omega) hbeg'
  refine ⟨hle, fun z hz => ?_⟩
  induction z, hz using Nat.le_induction with
  | base => exact fun _ => transfer_ends h hbeg'
  | succ z hz ih =>
    intro hzt
    rcases beat_clock_none (ins z) (sound_runFrom h ins z).inv (ih (by omega)) with hn | hn
    · exact hn
    · have hx : Transferred (runFrom s₀ ins) (z + 1) (t₁ + 2) :=
        ⟨(begins_iff h hb0).mpr hn, by have := hover (z + 1) hzt hn; omega⟩
      have := hlast _ hx
      omega

/-! ### The suspicion level between two decisions -/

theorem suspicion_clock {s : System} {i : In} (hs : s.Sound) (hd : s.initDone = true) (hf : s.frameStart i = false) :
    (s.clock true i).datapath.suspicion = s.datapath.suspicion := by
  have hr : (s.controlOut i).resetnDatapath = true := resetnDatapath_of_initDone hs hd
  have hno : ¬ ((s.datapathIn i).resetn = false ∨ (s.datapathIn i).initDone = false) := by
    rintro (h | h)
    · exact absurd (hr.symm.trans h) (by simp)
    · exact absurd (hd.symm.trans h) (by simp)
  have hlow : ¬ (s.datapathIn i).frameStart = true := by
    intro h
    exact absurd (hf.symm.trans h) (by simp)
  rw [datapath_clock_eq hr]
  exact (if_neg hno).trans (if_neg hlow)

/-- The suspicion level changes at a `frame_start` only. -/
theorem suspicion_eq (h : s₀.Sound) (h0 : s₀.datapath.diffCnt = 0 ∧ s₀.datapath.suspicion = 0) {x y : ℕ} (hxy : x ≤ y)
    (hno : ∀ z, x ≤ z → z < y → (runFrom s₀ ins z).frameStart (ins z) = false) :
    (runFrom s₀ ins y).datapath.suspicion = (runFrom s₀ ins x).datapath.suspicion := by
  induction y, hxy using Nat.le_induction with
  | base => rfl
  | succ y hxy ih =>
    rw [← ih fun z h1 h2 => hno z h1 (by omega)]
    cases hd : (runFrom s₀ ins y).initDone
    · have hin : ((runFrom s₀ ins y).datapathIn (ins y)).resetn = false ∨
          ((runFrom s₀ ins y).datapathIn (ins y)).initDone = false := Or.inr hd
      have hzero : (runFrom s₀ ins (y + 1)).datapath.suspicion = 0 := if_pos hin
      rw [hzero, (cleared_of_not_initDone h0 hd).2]
    · exact suspicion_clock (sound_runFrom h ins y) hd (hno y hxy (Nat.lt_succ_self y))

end System

/-! ## The alert -/

namespace Ov7670Top

/-- The downsampler and the detector along a run. -/
def systems (r : ℕ → Ov7670Top) (t : ℕ) : System := (r t).system

/-- Pixel `a` of the transfer from cycle `t₀` on. -/
def pixelAt (r : ℕ → Ov7670Top) (t₀ a : ℕ) : BitVec 16 := (r (t₀ + a + 2)).objDetPixel

def thresholds (i : In) : Thresholds := ⟨i.detectionThres, i.staticThres, i.suspicionThres⟩

/-- **An alert**: decided upon at the `frame_start` of cycle `v`, up since, and still up in cycle `t`, with the
thresholds as they were (`fixed`, which no proof below needs). -/
structure Alerted (ins : ℕ → In) (r : ℕ → Ov7670Top) (v t : ℕ) : Prop where
  decision : (r v).frameStart (ins v) = true
  low : (r v).objDetSusp (ins v) = false
  after : v < t
  high : ∀ x, v < x → x ≤ t → (r x).objDetSusp (ins x) = true
  fixed : ∀ x, v < x → x ≤ t → thresholds (ins x) = thresholds (ins v)

/-- In cycle `t` the downsampled frame buffer holds the pixels of the transfer from cycle `t₀` on. -/
def HoldsTransfer (r : ℕ → Ov7670Top) (t₀ t : ℕ) : Prop := ∀ a < frameSize, (r t).kept a = pixelAt r t₀ a

/-- Cycle `z` writes cell `a` of the downsampled frame buffer. -/
def WritesCell (ins : ℕ → In) (r : ℕ → Ov7670Top) (z a : ℕ) : Prop :=
  (r z).frameBramWren (ins z) = true ∧ (r z).objDetAddr.toNat = a

/-- The beat of cycle `z` is present in cell `a` in cycle `t`: it is the last one written there. -/
def Present (ins : ℕ → In) (r : ℕ → Ov7670Top) (z a t : ℕ) : Prop :=
  z < t ∧ WritesCell ins r z a ∧ ∀ y, z < y → y < t → ¬ WritesCell ins r y a

/-- **The frame and nothing else**: in cycle `t` the buffer holds the pixels of the transfer from cycle `t₀` on, and no
beat of a later transfer is present in it. -/
structure HoldsFrame (ins : ℕ → In) (r : ℕ → Ov7670Top) (t₀ t : ℕ) : Prop where
  pixels : HoldsTransfer r t₀ t
  alone : ∀ x, t₀ < x → System.Begins (systems r) x → ∀ c ≤ frameSize + 1, ∀ a < frameSize,
    ¬ Present ins r (x + c) a t

section Run

variable {s₀ : Ov7670Top} {ins : ℕ → In}

theorem systems_runFrom : systems (runFrom s₀ ins) = System.runFrom s₀.system (systemIns s₀ ins) := funext system_eq

/-- A cell holds the word of the beat present in it. -/
theorem kept_of_present {z a t : ℕ} (hp : Present ins (runFrom s₀ ins) z a t) (hlt : a < frameSize) :
    (runFrom s₀ ins t).kept a = (runFrom s₀ ins z).objDetPixel := by
  obtain ⟨hzt, ⟨hw, haddr⟩, hlast⟩ := hp
  have hcell : (runFrom s₀ ins (z + 1)).kept a = (runFrom s₀ ins z).objDetPixel := kept_of_wren hw haddr hlt
  rw [← hcell]
  refine kept_eq hzt fun y h1 h2 => ?_
  by_cases hy : (runFrom s₀ ins y).frameBramWren (ins y) = true
  · exact Or.inr fun ha => hlast y h1 h2 ⟨hy, ha.symm⟩
  · exact Or.inl (Bool.not_eq_true _ ▸ hy)

section Beats

variable (h : s₀.system.Sound) {t c : ℕ}
include h

theorem sound_run (t : ℕ) : (runFrom s₀ ins t).system.Sound := by
  rw [system_eq]
  exact System.sound_runFrom h _ t

theorem objDetWren_run (t : ℕ) : (runFrom s₀ ins t).objDetWren = (runFrom s₀ ins t).system.beat.isSome :=
  System.objDetWren_eq_beat (sound_run h t).inv

theorem objDetWren_beat (hb : (runFrom s₀ ins t).system.beat = some c) : (runFrom s₀ ins t).objDetWren = true :=
  (System.objDetWren_iff (sound_run h t).inv).mpr ⟨c, hb⟩

theorem objDetAddr_run (hb : (runFrom s₀ ins t).system.beat = some c) :
    (runFrom s₀ ins t).objDetAddr.toNat = c - 2 := System.objDetAddr_of_beat (sound_run h t).inv hb

theorem tdataAddr_run (hb : (runFrom s₀ ins t).system.beat = some c) :
    (runFrom s₀ ins t).system.downsampler.tdataAddr.toNat = c := Downsampler.tdataAddr_eq (sound_run h t).inv hb

/-- A beat presents the word read one cycle earlier. -/
theorem objDetPixel_succ (hb : (runFrom s₀ ins t).system.beat = some c) (hc : c ≤ frameSize) :
    (runFrom s₀ ins (t + 1)).objDetPixel = (runFrom s₀ ins t).uFrameBuffer.doutb :=
  System.bufferedCapturePixel_clock (i := (runFrom s₀ ins t).systemIn (ins t)) (sound_run h t).inv hb hc

theorem beats_run (hb : (runFrom s₀ ins t).system.beat = some 0) (hc : c ≤ frameSize + 1) :
    (runFrom s₀ ins (t + c)).system.beat = some c := by
  rw [system_eq] at hb ⊢
  exact System.transfer_beats h hb c hc

/-- **A transferred pixel** is the cell of the frame buffer when it was addressed. -/
theorem pixelAt_eq (hb : (runFrom s₀ ins t).system.beat = some 0) {a : ℕ} (ha : a < frameSize) :
    pixelAt (runFrom s₀ ins) t a = (runFrom s₀ ins (t + a)).uFrameBuffer.mem a := by
  have hpix : pixelAt (runFrom s₀ ins) t a = (runFrom s₀ ins (t + a + 1)).uFrameBuffer.doutb :=
    objDetPixel_succ h (beats_run h hb (c := a + 1) (by omega)) (by omega)
  have hba : (runFrom s₀ ins (t + a)).system.beat = some a := beats_run h hb (by omega)
  rw [hpix, runFrom_succ]
  exact doutb_of_lt (objDetWren_beat h hba) (tdataAddr_run h hba) ha

end Beats

/-! ### The frozen image -/

section Frozen

variable (h : s₀.system.Sound) (hb0 : s₀.system.beat = none) {t₀ t₁ t : ℕ}
include h hb0

theorem begins_run : System.Begins (systems (runFrom s₀ ins)) t ↔ (runFrom s₀ ins t).system.beat = some 0 := by
  rw [systems_runFrom, system_eq]
  exact System.begins_iff h hb0

omit hb0 in
/-- A decision is made in cycle `1` of a transfer, with a transfer completed before. -/
theorem lastTransfer_of_decision (h0 : s₀.system.InPhase .off) (hb0 : s₀.system.beat = none) {v : ℕ}
    (hd : (runFrom s₀ ins v).frameStart (ins v) = true) :
    ∃ t₁ t₀, v = t₁ + 1 ∧ (runFrom s₀ ins t₁).system.beat = some 0 ∧
      System.LastTransfer (systems (runFrom s₀ ins)) t₀ (t₁ + 2) := by
  have hstart : (runFrom s₀ ins v).system.InPhase .start :=
    System.inPhase_start (sound_run h v) (frameStart_iff.mp hd)
  rw [system_eq] at hstart
  obtain ⟨t₁, rfl, hb⟩ := System.beat_back h hb0 hstart.2.2
  obtain ⟨x, hx⟩ := System.transferred_of_initDone h.inv h0 hb0 hstart.2.1
  have hx' : System.Transferred (System.runFrom s₀.system (systemIns s₀ ins)) x (t₁ + 2) := by
    refine ⟨hx.1, ?_⟩
    have := hx.2
    omega
  obtain ⟨t₀, hl⟩ := System.exists_lastTransfer hx'
  refine ⟨t₁, t₀, rfl, ?_, ?_⟩
  · rw [system_eq]
    exact hb
  · rw [systems_runFrom]
    exact hl

/-- Between the last completed transfer and the one of the decision nothing is written or read. -/
theorem idle_run (hb : (runFrom s₀ ins t₁).system.beat = some 0)
    (hl : System.LastTransfer (systems (runFrom s₀ ins)) t₀ (t₁ + 2)) :
    t₀ + frameSize + 2 ≤ t₁ ∧
      ∀ z, t₀ + frameSize + 2 ≤ z → z < t₁ → (runFrom s₀ ins z).objDetWren = false := by
  rw [systems_runFrom] at hl
  rw [system_eq] at hb
  obtain ⟨hle, hidle⟩ := System.idle_of_lastTransfer h hb0 hb hl
  refine ⟨hle, fun z h1 h2 => ?_⟩
  rw [objDetWren_run h, system_eq, hidle z h1 h2]
  rfl

omit hb0 in
/-- **The gate shuts one cycle late**: the beat of cycle `1` of the next transfer is present in cell `0`. -/
theorem present_of_alerted (hb : (runFrom s₀ ins t₁).system.beat = some 0)
    (ha : Alerted ins (runFrom s₀ ins) (t₁ + 1) t) : Present ins (runFrom s₀ ins) (t₁ + 1) 0 t := by
  have hb₁ := beats_run h hb (show 1 ≤ frameSize + 1 by omega)
  refine ⟨ha.after, ⟨frameBramWren_of_open (objDetWren_beat h hb₁) ha.low, objDetAddr_run h hb₁⟩, ?_⟩
  rintro y h1 h2 ⟨hw, -⟩
  rw [frameBramWren_of_susp (ha.high y h1 h2.le)] at hw
  exact absurd hw (by simp)

/-- **Cell `0` of the frozen image**: the last lead-in word, read beyond the depth of the frame buffer. -/
theorem kept_zero_of_alerted (hb : (runFrom s₀ ins t₁).system.beat = some 0)
    (hl : System.LastTransfer (systems (runFrom s₀ ins)) t₀ (t₁ + 2))
    (ha : Alerted ins (runFrom s₀ ins) (t₁ + 1) t) :
    (runFrom s₀ ins t).kept 0 = (ins (t₀ + frameSize + 1)).frameOob := by
  have hfs := frameSize_eq
  obtain ⟨hle, hidle⟩ := idle_run h hb0 hb hl
  have hb₀ := (begins_run h hb0).mp hl.1.1
  -- the last read of the transfer is beyond the depth, and the word stays on the port
  have hlast : (runFrom s₀ ins (t₀ + frameSize + 1)).system.beat = some (frameSize + 1) := beats_run h hb₀ le_rfl
  have hword : (runFrom s₀ ins (t₀ + frameSize + 2)).uFrameBuffer.doutb = (ins (t₀ + frameSize + 1)).frameOob := by
    have haddr := tdataAddr_run h hlast
    rw [show t₀ + frameSize + 2 = t₀ + frameSize + 1 + 1 from rfl, runFrom_succ]
    exact doutb_of_oob (objDetWren_beat h hlast) (by omega)
  have hdout : (runFrom s₀ ins t₁).uFrameBuffer.doutb = (ins (t₀ + frameSize + 1)).frameOob :=
    (doutb_eq hle hidle).trans hword
  -- cycle `1` of the next transfer writes it to cell `0`
  rw [kept_of_present (present_of_alerted h hb ha) (by omega), objDetPixel_succ h hb (Nat.zero_le _), hdout]

/-- **The other cells of the frozen image**: the pixels of the last completed transfer, except where the gate was
shut. -/
theorem kept_pos_of_alerted (hb : (runFrom s₀ ins t₁).system.beat = some 0)
    (hl : System.LastTransfer (systems (runFrom s₀ ins)) t₀ (t₁ + 2))
    (ha : Alerted ins (runFrom s₀ ins) (t₁ + 1) t) {a : ℕ} (h0 : 0 < a) (hlt : a < frameSize) :
    (runFrom s₀ ins t).kept a =
      if (runFrom s₀ ins (t₀ + a + 2)).objDetSusp (ins (t₀ + a + 2)) then (runFrom s₀ ins (t₀ + a + 2)).kept a
      else pixelAt (runFrom s₀ ins) t₀ a := by
  have hfs := frameSize_eq
  obtain ⟨hle, hidle⟩ := idle_run h hb0 hb hl
  have hb₀ := (begins_run h hb0).mp hl.1.1
  -- after its own cycle the cell is not addressed until the alert is up
  have hkept : (runFrom s₀ ins t).kept a = (runFrom s₀ ins (t₀ + a + 2 + 1)).kept a := by
    refine kept_eq (by have := ha.after; omega) ?_
    intro z h1 h2
    rcases Nat.lt_or_ge (t₁ + 1) z with hz | hz
    · exact Or.inl (frameBramWren_of_susp (ha.high z hz h2.le))
    · rcases (by omega : z < t₀ + frameSize + 2 ∨ (t₀ + frameSize + 2 ≤ z ∧ z < t₁) ∨ z = t₁ ∨ z = t₁ + 1) with
        hz | ⟨hz1, hz2⟩ | rfl | rfl
      · have hbz := beats_run h hb₀ (show z - t₀ ≤ frameSize + 1 by omega)
        rw [show t₀ + (z - t₀) = z by omega] at hbz
        have := objDetAddr_run h hbz
        omega
      · exact Or.inl (frameBramWren_of_idle (hidle z hz1 hz2))
      · have := objDetAddr_run h hb
        omega
      · have := objDetAddr_run h (beats_run h hb (show 1 ≤ frameSize + 1 by omega))
        omega
  have hba : (runFrom s₀ ins (t₀ + a + 2)).system.beat = some (a + 2) :=
    beats_run h hb₀ (c := a + 2) (by omega)
  rw [hkept]
  by_cases hs : (runFrom s₀ ins (t₀ + a + 2)).objDetSusp (ins (t₀ + a + 2)) = true
  · rw [if_pos hs, runFrom_succ, kept_of_not_wren (frameBramWren_of_susp hs)]
  · rw [if_neg hs]
    rw [Bool.not_eq_true] at hs
    exact kept_of_wren (frameBramWren_of_open (objDetWren_beat h hba) hs) (objDetAddr_run h hba) hlt

/-- While the suspicion threshold stays as it was at the decision, the gate is open for all pixels of the last completed
transfer. -/
theorem susp_low_of_fixed (hs0 : s₀.system.datapath.diffCnt = 0 ∧ s₀.system.datapath.suspicion = 0)
    (hb : (runFrom s₀ ins t₁).system.beat = some 0)
    (hl : System.LastTransfer (systems (runFrom s₀ ins)) t₀ (t₁ + 2))
    (hlow : (runFrom s₀ ins (t₁ + 1)).objDetSusp (ins (t₁ + 1)) = false) {x : ℕ} (hx : t₀ + 2 ≤ x) (hx' : x ≤ t₁ + 1)
    (hfix : (ins x).suspicionThres = (ins (t₁ + 1)).suspicionThres) :
    (runFrom s₀ ins x).objDetSusp (ins x) = false := by
  have hfs := frameSize_eq
  obtain ⟨hle, hidle⟩ := idle_run h hb0 hb hl
  have hb₀ := (begins_run h hb0).mp hl.1.1
  -- no `frame_start` from cycle `2` of the transfer on until the decision
  have hno : ∀ z, x ≤ z → z < t₁ + 1 → (runFrom s₀ ins z).frameStart (ins z) = false := by
    intro z h1 h2
    by_contra hf
    rw [Bool.not_eq_false] at hf
    have hone : (runFrom s₀ ins z).system.beat = some 1 :=
      (System.inPhase_start (sound_run h z) (frameStart_iff.mp hf)).2.2
    rcases (by omega : z < t₀ + frameSize + 2 ∨ (t₀ + frameSize + 2 ≤ z ∧ z < t₁) ∨ z = t₁) with
      hz | ⟨hz1, hz2⟩ | rfl
    · have hbz := beats_run h hb₀ (show z - t₀ ≤ frameSize + 1 by omega)
      rw [show t₀ + (z - t₀) = z by omega, hone] at hbz
      have := Option.some.inj hbz
      omega
    · have hw := hidle z hz1 hz2
      rw [objDetWren_beat h hone] at hw
      cases hw
    · rw [hb] at hone
      cases hone
  have hkeep : (runFrom s₀ ins (t₁ + 1)).system.datapath.suspicion = (runFrom s₀ ins x).system.datapath.suspicion := by
    rw [system_eq, system_eq]
    refine System.suspicion_eq h hs0 hx' ?_
    intro z h1 h2
    have hz := hno z h1 h2
    unfold frameStart at hz
    rw [system_eq] at hz
    exact hz
  rw [objDetSusp_eq, hkeep, ← hfix, ← objDetSusp_eq] at hlow
  exact hlow

end Frozen

end Run

/-- **When the cells hold the pixels of the frame that raised the alert.**  From reset, whatever the two buffers hold,
in every cycle `t` of an alert decided upon in cycle `v`: the buffer holds the pixels of the last transfer completed
before the alert rose iff the word read beyond the depth of `u_frame_buffer` in that transfer's last cycle is its pixel
`0`, and the pixels withheld by an earlier alert were in the buffer already. -/
theorem frozen_image_iff (s : System) (i : System.In) (fb db : DualRam (BitVec 16)) (ins : ℕ → In)
    (r : ℕ → Ov7670Top) (hr : r = runFrom ⟨s.clock false i, fb, db⟩ ins) (v t : ℕ) (ha : Alerted ins r v t) :
    ∃ t₀, System.LastTransfer (systems r) t₀ (v + 1) ∧
      (r t).kept 0 = (ins (t₀ + frameSize + 1)).frameOob ∧
      (HoldsTransfer r t₀ t ↔
        (ins (t₀ + frameSize + 1)).frameOob = pixelAt r t₀ 0 ∧
        ∀ a, 0 < a → a < frameSize → (r (t₀ + a + 2)).objDetSusp (ins (t₀ + a + 2)) = true →
          (r (t₀ + a + 2)).kept a = pixelAt r t₀ a) := by
  subst hr
  have hfs := frameSize_eq
  have h : (s.clock false i).Sound := System.sound_reset s i
  have hb0 : (s.clock false i).beat = none := rfl
  obtain ⟨t₁, t₀, rfl, hb, hl⟩ := lastTransfer_of_decision h (System.inPhase_reset s i) hb0 ha.decision
  have hzero := kept_zero_of_alerted h hb0 hb hl ha
  refine ⟨t₀, hl, hzero, fun hw => ⟨hzero.symm.trans (hw 0 (by omega)), fun a h0 hlt hs => ?_⟩, fun hc a hlt => ?_⟩
  · have hpos := kept_pos_of_alerted h hb0 hb hl ha h0 hlt
    rw [if_pos hs] at hpos
    exact hpos.symm.trans (hw a hlt)
  · rcases Nat.eq_zero_or_pos a with rfl | h0
    · exact hzero.trans hc.1
    · rw [kept_pos_of_alerted h hb0 hb hl ha h0 hlt]
      split_ifs with hs
      · exact hc.2 a h0 hlt hs
      · rfl

/-- **The frozen image is never the frame alone.**  From reset, whatever the two buffers hold, in every cycle `t` of an
alert decided upon in cycle `v`: a transfer was completed before the alert rose, and the buffer does not hold the last
such transfer and nothing else. -/
theorem frozen_image_never (s : System) (i : System.In) (fb db : DualRam (BitVec 16)) (ins : ℕ → In)
    (r : ℕ → Ov7670Top) (hr : r = runFrom ⟨s.clock false i, fb, db⟩ ins) (v t : ℕ) (ha : Alerted ins r v t) :
    (∃ t₀, System.LastTransfer (systems r) t₀ (v + 1)) ∧
      ∀ t₀, System.LastTransfer (systems r) t₀ (v + 1) → ¬ HoldsFrame ins r t₀ t := by
  subst hr
  have h : (s.clock false i).Sound := System.sound_reset s i
  have hb0 : (s.clock false i).beat = none := rfl
  obtain ⟨t₁, t₀, rfl, hb, hl⟩ := lastTransfer_of_decision h (System.inPhase_reset s i) hb0 ha.decision
  refine ⟨⟨t₀, hl⟩, fun t₀ hl hw => ?_⟩
  -- the next transfer begins in cycle `t₁`, and its beat of cycle `t₁ + 1` stays in cell `0`
  have hlater : t₀ < t₁ := by
    have := (idle_run h hb0 hb hl).1
    omega
  exact hw.alone t₁ hlater ((begins_run h hb0).mpr hb) 1 (by omega) 0 (by rw [frameSize_eq]; omega)
    (present_of_alerted h hb ha)

/-! ### A dark scene -/

section Dark

/-- The camera has stopped on a dark blue frame, transferred back to back at the lowest thresholds; `w` is read beyond
the depth of the frame buffer. -/
def darkScene (w : BitVec 16) (t : ℕ) : In where
  ov7670Vsync := false
  captureAddr := if t < 2 then 0 else 76799
  captureWren := false
  rgbData16 := 0
  decimationRate := 0
  configFinished := true
  startCapture := decide (1 ≤ t)
  bwThres := 0x70
  detectionThres := 0
  staticThres := 0
  suspicionThres := 1
  bramAddr := 0
  frameOob := w
  bramOob := w

def darkStart : Ov7670Top := ⟨System.init, ⟨fun _ => 1, 0⟩, ⟨fun _ => 0, 0⟩⟩

variable (w : BitVec 16)

def darkRun : ℕ → Ov7670Top := runFrom darkStart (darkScene w)

/-- The words read from the frame buffer. -/
def darkWords (t : ℕ) : BitVec 16 := (darkRun w t).uFrameBuffer.doutb

theorem darkRun_system (t : ℕ) :
    (darkRun w t).system = System.runFrom System.init (System.backToBack (darkWords w) ⟨0, 0, 1⟩) t := system_eq t

theorem darkRun_mem (t : ℕ) : (darkRun w t).uFrameBuffer.mem = fun _ => 1 := by
  induction t with
  | zero => rfl
  | succ t ih =>
    have hclk : (darkRun w (t + 1)).uFrameBuffer.mem = (darkRun w t).uFrameBuffer.mem := DualRam.clock_mem_of_not_wea
    rw [hclk, ih]

theorem pixelAt_dark {t a : ℕ} (hb : (darkRun w t).system.beat = some 0) (ha : a < frameSize) :
    pixelAt (darkRun w) t a = 1 := by
  have hpix : pixelAt (darkRun w) t a = (darkRun w (t + a)).uFrameBuffer.mem a := pixelAt_eq System.sound_init hb ha
  rw [hpix, darkRun_mem]

theorem delivers_dark : System.Delivers (System.backToBack (darkWords w) ⟨0, 0, 1⟩)
    (System.runFrom System.init (System.backToBack (darkWords w) ⟨0, 0, 1⟩)) fun _ _ => true := by
  intro k t hk a ha
  have hb := (System.begins_iff System.sound_init rfl).mp hk.1.1
  rw [← darkRun_system] at hb
  have hpix := pixelAt_dark w hb ha
  have hbw : suspPixelIn 0x70 (pixelAt (darkRun w) t a) = true := by
    rw [hpix]
    decide
  unfold pixelAt objDetPixel at hbw
  rw [darkRun_system] at hbw
  exact hbw

/-- The suspicion level before and after the third decision. -/
theorem suspicion_dark :
    (darkRun w (System.beginCycle 3 + 1)).system.datapath.suspicion = 0 ∧
      (darkRun w (System.beginCycle 3 + 2)).system.datapath.suspicion = 1 := by
  have hidle : System.StartsIdle (System.backToBack (darkWords w) ⟨0, 0, 1⟩)
      (System.runFrom System.init (System.backToBack (darkWords w) ⟨0, 0, 1⟩)) :=
    System.startsIdle_of_one (fun _ => rfl) ⟨rfl, rfl⟩
  have hthr : ∀ t, System.thresholds (System.backToBack (darkWords w) ⟨0, 0, 1⟩ t) = ⟨0, 0, 1⟩ := fun _ => rfl
  have hfol := System.followed hidle hthr (delivers_dark w)
  have hkth := System.kth_taken_backToBack (darkWords w) ⟨0, 0, 1⟩ 3
  have hlead := System.lead_backToBack (darkWords w) ⟨0, 0, 1⟩ (k := 3) (by omega)
  obtain ⟨hstart, hproc⟩ := System.proc_phases System.sound_init hlead
  rw [darkRun_system, darkRun_system]
  constructor
  · obtain ⟨t₀, ht₀, hk, -, -, hS⟩ := hfol _ _ hstart
    obtain rfl : t₀ = System.beginCycle 3 := by omega
    rw [hS.suspicion, show Nat.count _ (System.beginCycle 3 + 1) = 2 by have := hk.2.symm.trans hkth.2; omega]
    exact suspicion_two _ _
  · obtain ⟨t₀, k, ht₀, hk, -, -, -, hS⟩ := hfol _ _ (hproc 0 (Nat.zero_le _))
    obtain rfl : t₀ = System.beginCycle 3 := by omega
    obtain rfl : k = 2 := by have := hk.2.symm.trans hkth.2; omega
    refine hS.suspicion.trans ?_
    unfold Tally.nextSuspicion
    rw [if_pos (frameMatch_of_black rfl rfl rfl 0), suspicion_two]
    rfl

/-- The third decision raises the alert. -/
theorem alerted_dark :
    Alerted (darkScene w) (darkRun w) (System.beginCycle 3 + 1) (System.beginCycle 3 + 2) where
  decision := by
    have hlead := System.lead_backToBack (darkWords w) ⟨0, 0, 1⟩ (k := 3) (by omega)
    have hstart := (System.proc_phases System.sound_init hlead).1
    rw [← darkRun_system] at hstart
    exact frameStart_iff.mpr hstart.1
  low := by
    rw [objDetSusp_eq, (suspicion_dark w).1]
    rfl
  after := by omega
  high x h1 h2 := by
    obtain rfl : x = System.beginCycle 3 + 2 := by omega
    rw [objDetSusp_eq, (suspicion_dark w).2]
    rfl
  fixed _ _ _ := rfl

end Dark

/-- On the dark scene. -/
theorem frozen_image_never_dark :
    ∃ t₀, System.LastTransfer (systems (darkRun 0)) t₀ (System.beginCycle 3 + 2) ∧
      ¬ HoldsFrame (darkScene 0) (darkRun 0) t₀ (System.beginCycle 3 + 2) := by
  obtain ⟨⟨t₀, hl⟩, hnot⟩ := frozen_image_never System.init (System.backToBack (darkWords 0) ⟨0, 0, 1⟩ 0)
    ⟨fun _ => 1, 0⟩ ⟨fun _ => 0, 0⟩ (darkScene 0) (darkRun 0) (by rw [System.clock_reset_init]; rfl) _ _
    (alerted_dark 0)
  exact ⟨t₀, hl, hnot t₀ hl⟩

/-- Cell `0` of the image frozen on the dark scene is `0`, and no transfer has a `0` there. -/
theorem frozen_image_not_whole :
    Alerted (darkScene 0) (darkRun 0) (System.beginCycle 3 + 1) (System.beginCycle 3 + 2) ∧
    ¬ ∃ t₀, System.LastTransfer (systems (darkRun 0)) t₀ (System.beginCycle 3 + 2) ∧
      HoldsFrame (darkScene 0) (darkRun 0) t₀ (System.beginCycle 3 + 2) := by
  refine ⟨alerted_dark 0, ?_⟩
  rintro ⟨t₀, hl, hw, -⟩
  have hpos : 0 < frameSize := by rw [frameSize_eq]; omega
  have hb : (darkRun 0 t₀).system.beat = some 0 := (begins_run System.sound_init rfl).mp hl.1.1
  have hb₃ : (darkRun 0 (System.beginCycle 3)).system.beat = some 0 := by
    rw [darkRun_system]
    exact System.beat_beginCycle _ _ 3
  have hzero : (darkRun 0 (System.beginCycle 3 + 2)).kept 0 = 0 :=
    kept_zero_of_alerted System.sound_init rfl hb₃ hl (alerted_dark 0)
  have hcell := hw 0 hpos
  rw [hzero, pixelAt_dark 0 hb hpos] at hcell
  exact absurd hcell (by decide)

end Ov7670Top

end SuspiciousPackage
