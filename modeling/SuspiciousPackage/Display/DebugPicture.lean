import SuspiciousPackage.Display.Vga444
import SuspiciousPackage.Detect.Alignment
import SuspiciousPackage.Detect.Consecutive

/-!
# Display.DebugPicture — the VGA debug path of `obj_det_axi_top`

What the detector is given, the reference or the last difference is written to the frame buffer of the display while a
transfer streams by.  The pixel given is presented together with its address, so the first picture is the frame of the
detector; the other two come out of the RAMs of the detector two cycles after their address, and the difference was
stored two cells too far already, so they are shown two and four cells late (`debug_pictures`).
-/

namespace SuspiciousPackage

open Sync

/-- Get rid of the lower 4 bits. -/
def grayToRgb444 (grayIn : BitVec 8) : BitVec 4 := (grayIn >>> 4).setWidth 4

/-- A component of the pixel in black and white. -/
def vgaRgbToGrayscale (enableBw : Bool) (bwThreshold : BitVec 8) (r g b : BitVec 4) : BitVec 4 :=
  grayToRgb444 (grayscale8ToBw enableBw (rgb444ToGray r g b) bwThreshold)

structure VgaDebug where
  system : System
  display : Display

namespace VgaDebug

open Vga444 (positionOf)

structure In where
  resetn : Bool
  system : System.In
  switches : BitVec 16
  clk25 : Bool
  /-- The upper bits of `bw_data_16`, which nothing drives. -/
  undriven : BitVec 4
  oob : BitVec 16
deriving DecidableEq, Repr

/-- The downsampler as it shows in this cycle. -/
def downsampler (i : In) (s : VgaDebug) : Downsampler := s.system.downsampler.settle i.resetn

def bwData16 (i : In) (s : VgaDebug) : BitVec 16 :=
  i.undriven ++
    vgaRgbToGrayscale true i.system.bwThres (pixelR (s.downsampler i).objDetPixel) (pixelG (s.downsampler i).objDetPixel)
      (pixelB (s.downsampler i).objDetPixel) ++
    vgaRgbToGrayscale true i.system.bwThres (pixelR (s.downsampler i).objDetPixel) (pixelG (s.downsampler i).objDetPixel)
      (pixelB (s.downsampler i).objDetPixel) ++
    vgaRgbToGrayscale true i.system.bwThres (pixelR (s.downsampler i).objDetPixel) (pixelG (s.downsampler i).objDetPixel)
      (pixelB (s.downsampler i).objDetPixel)

/-- A one-bit pixel on 8 bits, as an RGB444 pixel. -/
def pixelRgb (b : Bool) : BitVec 16 :=
  0#4 ++ grayToRgb444 ((BitVec.ofBool b).replicate 8) ++ grayToRgb444 ((BitVec.ofBool b).replicate 8) ++
    grayToRgb444 ((BitVec.ofBool b).replicate 8)

def refPixelRgb (s : VgaDebug) : BitVec 16 := pixelRgb s.system.detector.datapath.refPixel

def prevDiffPixelRgb (s : VgaDebug) : BitVec 16 := pixelRgb s.system.detector.datapath.prevDiffPixel

/-- Either data before passed through the detector, or after. -/
def vgaBramIn (i : In) (s : VgaDebug) : BitVec 16 :=
  if i.switches.getLsbD 14 = false then s.bwData16 i
  else if i.switches.getLsbD 13 = false then s.refPixelRgb else s.prevDiffPixelRgb

def displayIn (i : In) (s : VgaDebug) : Display.In where
  clk25 := i.clk25
  objDetWren := (s.downsampler i).objDetWren
  objDetAddr := (s.downsampler i).objDetAddr
  vgaBramIn := s.vgaBramIn i
  oob := i.oob

/-- One edge of `clk100`. -/
def clock (i : In) (s : VgaDebug) : VgaDebug where
  system := s.system.clock i.resetn i.system
  display := s.display.clock (s.displayIn i)

/-! ## Colours -/

/-- White for `1`, black for `0`. -/
def shade (b : Bool) : BitVec 4 × BitVec 4 × BitVec 4 := if b then (15, 15, 15) else (0, 0, 0)

theorem rgb_append (u x : BitVec 4) : Display.rgb (u ++ x ++ x ++ x) = (x, x, x) := by
  revert u x
  decide +kernel

theorem rgb_pixelRgb (b : Bool) : Display.rgb (pixelRgb b) = shade b := by
  cases b <;> decide

theorem grayToRgb444_bw (g thr : BitVec 8) :
    grayToRgb444 (grayscale8ToBw true g thr) = if (grayscale8ToBw true g thr).getLsbD 0 then 15 else 0 := by
  unfold grayscale8ToBw
  rw [if_pos rfl]
  split_ifs with h1 h2 h3
  · exact absurd h2 (by decide)
  · rfl
  · rfl
  · exact absurd rfl h3

/-- The picture of the given pixels is what the detector is given. -/
theorem rgb_bwData16 {i : In} {s : VgaDebug} (h : i.resetn = true) :
    Display.rgb (s.bwData16 i) = shade (s.system.bwPixel i.system) := by
  have hd : s.downsampler i = s.system.downsampler := by
    unfold downsampler
    rw [h]
    rfl
  unfold bwData16
  rw [rgb_append, hd]
  unfold vgaRgbToGrayscale
  rw [grayToRgb444_bw]
  unfold shade System.bwPixel suspPixelIn
  split_ifs <;> rfl

/-! ## Along a run -/

/-- The downsampler and the detector from cycle `v` on. -/
def systems (r : ℕ → VgaDebug) (v t : ℕ) : System := (r (v + t)).system

/-- Their inputs. -/
def systemIns (ins : ℕ → In) (v t : ℕ) : System.In := (ins (v + t)).system

/-- The number of edges of `clk25` before cycle `t`. -/
def edges (ins : ℕ → In) (t : ℕ) : ℕ := Nat.count (fun z => (ins z).clk25 = true) t

section Run

variable {s₀ : VgaDebug} {ins : ℕ → In} {v t a : ℕ}

def runOn (s₀ : VgaDebug) (ins : ℕ → In) : ℕ → VgaDebug := run clock s₀ ins

/-- The inputs of the display along a run. -/
def displayIns (s₀ : VgaDebug) (ins : ℕ → In) (t : ℕ) : Display.In := (runOn s₀ ins t).displayIn (ins t)

theorem display_eq (t : ℕ) :
    (runOn s₀ ins t).display = run Display.clock s₀.display (displayIns s₀ ins) t :=
  run_proj (f := VgaDebug.display) (fun _ => rfl) t

variable (hlow : (ins v).resetn = false) (hhigh : ∀ z, v < z → (ins z).resetn = true)
include hlow hhigh

variable (s₀)

theorem systems_eq : systems (runOn s₀ ins) (v + 1) =
    System.runFrom ((runOn s₀ ins v).system.clock false (ins v).system) (systemIns ins (v + 1)) := by
  funext t
  induction t with
  | zero =>
    show (runOn s₀ ins v).system.clock (ins v).resetn (ins v).system = _
    rw [hlow]
    rfl
  | succ t ih =>
    rw [System.runFrom_succ, ← ih]
    show (runOn s₀ ins (v + 1 + t)).system.clock (ins (v + 1 + t)).resetn _ = _
    rw [hhigh _ (by omega)]
    rfl

omit hlow in
theorem displayIn_eq {z : ℕ} (hz : v < z) :
    (displayIns s₀ ins z).objDetWren = (runOn s₀ ins z).system.downsampler.objDetWren ∧
      (displayIns s₀ ins z).objDetAddr = (runOn s₀ ins z).system.downsampler.objDetAddr := by
  have hd : (runOn s₀ ins z).downsampler (ins z) = (runOn s₀ ins z).system.downsampler := by
    unfold downsampler
    rw [hhigh z hz]
    rfl
  unfold displayIns displayIn
  rw [hd]
  exact ⟨rfl, rfl⟩

theorem inv_systems (x : ℕ) : (systems (runOn s₀ ins) (v + 1) x).downsampler.Inv := by
  rw [systems_eq s₀ hlow hhigh]
  exact (System.sound_runFrom (System.afterReset _ _).sound _ x).inv

variable {s₀}

/-- In cycle `a + 2` of a transfer cell `a` is written … -/
theorem mem_of_beat {x : ℕ} (hb : (systems (runOn s₀ ins) (v + 1) x).beat = some (a + 2)) (ha : a < frameSize) :
    (runOn s₀ ins (v + 1 + x + 1)).display.mem a =
      (runOn s₀ ins (v + 1 + x)).vgaBramIn (ins (v + 1 + x)) := by
  have hinv := inv_systems s₀ hlow hhigh x
  obtain ⟨hwren, haddr⟩ := displayIn_eq s₀ hhigh (show v < v + 1 + x by omega)
  have hw : (displayIns s₀ ins (v + 1 + x)).objDetWren = true :=
    hwren.trans ((System.objDetWren_iff hinv).mpr ⟨_, hb⟩)
  have hcell : (displayIns s₀ ins (v + 1 + x)).objDetAddr.toNat = a := by
    rw [haddr]
    exact System.objDetAddr_of_beat hinv hb
  show ((runOn s₀ ins (v + 1 + x)).display.uVgaFrameBuffer.clock frameSize
    (displayIns s₀ ins (v + 1 + x)).objDetWren (displayIns s₀ ins (v + 1 + x)).objDetAddr.toNat _ _ _ _).mem a = _
  rw [hw, hcell, DualRam.clock_mem_of_wea ha]
  exact Function.update_self ..

/-- … and only cells addressed by a transfer change. -/
theorem mem_of_ne {x : ℕ} (h : ∀ c, (systems (runOn s₀ ins) (v + 1) x).beat = some c → c - 2 ≠ a) :
    (runOn s₀ ins (v + 1 + x + 1)).display.mem a = (runOn s₀ ins (v + 1 + x)).display.mem a := by
  have hinv := inv_systems s₀ hlow hhigh x
  obtain ⟨hwren, haddr⟩ := displayIn_eq s₀ hhigh (show v < v + 1 + x by omega)
  refine DualRam.clock_mem_of_ne fun hw => ?_
  have hw' : (displayIns s₀ ins (v + 1 + x)).objDetWren = true := hw
  obtain ⟨c, hc⟩ := (System.objDetWren_iff hinv).mp (hwren.symm.trans hw')
  have hcell : (displayIns s₀ ins (v + 1 + x)).objDetAddr.toNat = c - 2 := by
    rw [haddr]
    exact System.objDetAddr_of_beat hinv hc
  show a ≠ (displayIns s₀ ins (v + 1 + x)).objDetAddr.toNat
  rw [hcell]
  exact (h c hc).symm

/-- A cell keeps what a transfer has written to it until the next one comes to it. -/
theorem mem_of_transfer (hb : System.Begins (systems (runOn s₀ ins) (v + 1)) t) (ha : a < frameSize) {x : ℕ}
    (hx : t + a + 3 ≤ x) (hlast : ∀ t', t < t' → System.Begins (systems (runOn s₀ ins) (v + 1)) t' →
      x ≤ t' + if a = 0 then 0 else a + 2) :
    (runOn s₀ ins (v + 1 + x)).display.mem a =
      (runOn s₀ ins (v + 1 + (t + a + 2))).vgaBramIn (ins (v + 1 + (t + a + 2))) := by
  have hsys := systems_eq s₀ hlow hhigh
  have hreset := System.afterReset (runOn s₀ ins v).system (ins v).system
  have hbeats : ∀ c ≤ frameSize + 1, (systems (runOn s₀ ins) (v + 1) (t + c)).beat = some c := by
    rw [hsys] at hb ⊢
    exact System.transfer_beats hreset.sound ((System.begins_iff hreset.sound hreset.idle).mp hb)
  induction x, hx using Nat.le_induction with
  | base => exact mem_of_beat hlow hhigh (x := t + a + 2) (hbeats (a + 2) (by omega)) ha
  | succ x hx ih =>
    refine (mem_of_ne hlow hhigh fun c hc => ?_).trans (ih fun t' h1 h2 => (Nat.le_succ x).trans (hlast t' h1 h2))
    -- the transfer in progress is this one, or one that has not come to the cell
    have hback := hc
    rw [hsys] at hback
    obtain ⟨t', rfl, hb'⟩ := System.beat_back hreset.sound hreset.idle hback
    rcases Nat.lt_trichotomy t' t with hlt | rfl | hlt
    · have hc' : c ≤ frameSize + 1 := Downsampler.beat_le (inv_systems s₀ hlow hhigh _) hc
      have hover := System.transfer_beats hreset.sound hb' (t - t') (by omega)
      have hzero := hbeats 0 (Nat.zero_le _)
      rw [hsys, show t + 0 = t' + (t - t') by omega, hover] at hzero
      have := Option.some.inj hzero
      omega
    · omega
    · have hnext := hlast t' hlt (by rw [hsys]; exact (System.begins_iff hreset.sound hreset.idle).mpr hb')
      split_ifs at hnext <;> omega

end Run

/-- **What the debug pictures show.**  The monitor shows in the place of cell `a` what was written for it by the last
transfer that had come to it when the display read it.  With `switches[14]` low in that cycle it is pixel `a` of the frame,
as the detector is given it; after `init_done`, with `switches[14]` high, it is pixel `a - 2` of the reference, and with
`switches[13]` high too, whether pixel `a - 4` of the frame processed before differs from the reference. -/
theorem debug_pictures (s₀ : VgaDebug) (h₀ : s₀.display.instVga.PowerUp) (ins : ℕ → In) (r : ℕ → VgaDebug)
    (hr : r = runOn s₀ ins) (v : ℕ) (hlow : (ins v).resetn = false) (hhigh : ∀ z, v < z → (ins z).resetn = true) (t : ℕ)
    (hb : System.Begins (systems r (v + 1)) t) (k a x w : ℕ) (ha : a < frameSize)
    (hread : Kth (fun z => (ins z).clk25 = true) (positionOf k a) (v + 1 + x)) (hx : t + a + 3 ≤ x)
    (hlast : ∀ t', t < t' → System.Begins (systems r (v + 1)) t' → x ≤ t' + if a = 0 then 0 else a + 2)
    (hw : edges ins w = positionOf k a + 2) :
    ((ins (v + 1 + (t + a + 2))).switches.getLsbD 14 = false →
      (r w).display.instVga.colour =
        shade (System.frameAt (systemIns ins (v + 1)) (systems r (v + 1)) t a)) ∧
    ((systems r (v + 1) t).initDone = true → (ins (v + 1 + (t + a + 2))).switches.getLsbD 14 = true →
      ((ins (v + 1 + (t + a + 2))).switches.getLsbD 13 = false →
        (r w).display.instVga.colour = shade ((systems r (v + 1) t).refMem (a - 2))) ∧
      ∀ p, System.Begins (systems r (v + 1)) p → (systems r (v + 1) p).initDone = true →
        Next (System.Begins (systems r (v + 1))) p t → 4 ≤ a →
          (ins (v + 1 + (t + a + 2))).switches.getLsbD 13 = true →
          (r w).display.instVga.colour = shade ((systems r (v + 1) t).refMem (a - 4) ^^
            System.frameAt (systemIns ins (v + 1)) (systems r (v + 1)) p (a - 4))) := by
  subst hr
  have hfs := frameSize_eq
  have hsys := systems_eq s₀ hlow hhigh
  have hreset := System.afterReset (runOn s₀ ins v).system (ins v).system
  have hcolour : (runOn s₀ ins w).display.instVga.colour =
      Display.rgb ((runOn s₀ ins (v + 1 + (t + a + 2))).vgaBramIn (ins (v + 1 + (t + a + 2)))) := by
    have hpos : Display.edges (displayIns s₀ ins) (v + 1 + x) = positionOf k a := hread.2
    have hw' : Display.edges (displayIns s₀ ins) w = positionOf k a + 2 := hw
    rw [← mem_of_transfer hlow hhigh hb ha hx hlast, display_eq, display_eq]
    exact Display.colour_of_cell h₀ hread.1 ha hpos (by rw [hw', hpos])
  have hhigh' : (ins (v + 1 + (t + a + 2))).resetn = true := hhigh _ (by omega)
  rw [hcolour]
  unfold vgaBramIn
  refine ⟨fun h14 => ?_, fun hd h14 => ?_⟩
  · rw [if_pos h14, rgb_bwData16 hhigh']
    rfl
  · -- the RAMs of the detector in cycle `a + 2` of a processed transfer
    have hframe : System.InFrame (System.thresholds (systemIns ins (v + 1) (t + 1)))
        (systems (runOn s₀ ins) (v + 1) t).tally
        (System.frameAt (systemIns ins (v + 1)) (systems (runOn s₀ ins) (v + 1)) t) (a + 2)
        (systems (runOn s₀ ins) (v + 1) (t + (a + 2))) := by
      rw [hsys] at hb hd ⊢
      exact System.inFrame_of_lead hreset (System.inPhase_lead (System.sound_runFrom hreset.sound _ t) hd
        ((System.begins_iff hreset.sound hreset.idle).mp hb)) (by omega) (by omega)
    rw [if_neg (by rw [h14]; exact Bool.true_eq_false.mp)]
    refine ⟨fun h13 => ?_, fun p hbp hdp hn h4 h13 => ?_⟩
    · rw [if_pos h13]
      unfold refPixelRgb
      rw [rgb_pixelRgb]
      exact congrArg shade hframe.refDout
    · rw [if_neg (by rw [h13]; exact Bool.true_eq_false.mp)]
      unfold prevDiffPixelRgb
      rw [rgb_pixelRgb]
      obtain ⟨b, rfl⟩ := Nat.exists_eq_add_of_le' h4
      have hdout : (systems (runOn s₀ ins) (v + 1) (t + (b + 4 + 2))).detector.datapath.prevDiffPixel =
          (systems (runOn s₀ ins) (v + 1) t).tally.diff (b + 4 + 2 - 4) := hframe.diffDout
      have hprev : (systems (runOn s₀ ins) (v + 1) t).tally =
          (systems (runOn s₀ ins) (v + 1) p).tally.process (System.thresholds (systemIns ins (v + 1) (p + 1)))
            (System.frameAt (systemIns ins (v + 1)) (systems (runOn s₀ ins) (v + 1)) p) := by
        rw [hsys] at hbp hdp hn ⊢
        exact System.tally_begins hreset hbp hdp hn
      have href : (systems (runOn s₀ ins) (v + 1) t).refMem = (systems (runOn s₀ ins) (v + 1) p).refMem :=
        congrArg Tally.ref hprev
      refine congrArg shade (hdout.trans ?_)
      rw [hprev, show b + 4 + 2 - 4 = b + 2 by omega, diff_process_add_two (by omega), href, Nat.add_sub_cancel]
      rfl

/-! ### A picture with one black pixel -/

/-- Pixel `1` is black. -/
def dot (a : ℕ) : Bool := decide (a = 1)

/-- The picture again and again after a cycle of reset, the reference on the display, both clocks alike. -/
def dotScene (z : ℕ) : In :=
  ⟨decide (0 < z), System.stillFrames dot ⟨0, 0, 1⟩ (z - 1), 0x4000, true, 0, 0⟩

def dotStart : VgaDebug := ⟨System.init, ⟨⟨fun _ => 0, 0⟩, ⟨0, 0, 0, false, false, 0, 0, 0, true⟩⟩⟩

theorem systems_dotScene :
    systems (runOn dotStart dotScene) (0 + 1) = System.runFrom System.init (System.stillFrames dot ⟨0, 0, 1⟩) := by
  have hins : systemIns dotScene (0 + 1) = System.stillFrames dot ⟨0, 0, 1⟩ := by
    funext t
    show System.stillFrames dot ⟨0, 0, 1⟩ (0 + 1 + t - 1) = _
    rw [show 0 + 1 + t - 1 = t by omega]
  rw [systems_eq dotStart rfl fun z hz => decide_eq_true hz, hins]
  rfl

theorem edges_dotScene (t : ℕ) : Nat.count (fun z => (dotScene z).clk25 = true) t = t :=
  Nat.count_iff_forall.mpr fun _ _ => rfl

/-- The black pixel `1` of the reference is shown in the place of pixel `3`, in white. -/
theorem debug_pictures_dot :
    (runOn dotStart dotScene (positionOf 0 3 + 2)).display.instVga.colour = (15, 15, 15) := by
  have hfs := frameSize_eq
  have hpos : positionOf 0 3 = 0 + 1 + 96162 := rfl
  have hsys := systems_dotScene
  have hbegins : System.Begins (systems (runOn dotStart dotScene) (0 + 1)) (System.beginCycle 1) := by
    rw [hsys]
    exact System.begins_stillFrames dot _ 1
  have hcycle : System.beginCycle 1 = 3 + 1 * (frameSize + 3) := rfl
  have hlast : ∀ t', System.beginCycle 1 < t' → System.Begins (systems (runOn dotStart dotScene) (0 + 1)) t' →
      96162 ≤ t' + if 3 = 0 then 0 else 3 + 2 := by
    rintro t' h1 h2
    rw [hsys] at h2
    have hnext := (System.next_begins_stillFrames dot ⟨0, 0, 1⟩ 1).none t' h1
    have hsucc := System.beginCycle_succ 1
    by_contra hlt
    exact hnext (by split_ifs at hlt <;> omega) h2
  obtain ⟨-, hrest⟩ := debug_pictures dotStart ⟨rfl, rfl, rfl, rfl⟩ dotScene _ rfl 0 rfl
    (fun z hz => decide_eq_true hz) (System.beginCycle 1) hbegins 0 3 96162 (positionOf 0 3 + 2) (by omega)
    ⟨rfl, (edges_dotScene _).trans hpos.symm⟩ (by omega) hlast (edges_dotScene _)
  have hdone : (systems (runOn dotStart dotScene) (0 + 1) (System.beginCycle 1)).initDone = true := by
    rw [hsys]
    exact System.initDone_stillFrames dot _ le_rfl
  have href : (systems (runOn dotStart dotScene) (0 + 1) (System.beginCycle 1)).refMem (3 - 2) = true := by
    rw [hsys, System.refMem_stillFrames dot _ le_rfl]
    exact if_pos (by omega)
  rw [(hrest hdone rfl).1 rfl, href]
  rfl

end VgaDebug

end SuspiciousPackage
