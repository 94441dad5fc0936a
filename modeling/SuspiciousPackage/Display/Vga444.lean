import SuspiciousPackage.Detect.Unit
import SuspiciousPackage.Sync.Run

/-!
# Display.Vga444 — `vga444` and the frame buffer it reads

A 320 by 240 picture in the middle of a 640 by 480 screen, of 800 by 525 positions in all.  After `n` edges of `clk25` the
counters are at position `n`; the address runs through the window of the picture (`addressAt`), and a position shows two
edges after the counters have been at it, one for the read port of the buffer and one for the colour registers
(`picture_scanned`).
-/

namespace SuspiciousPackage

open Sync

/-! ## `vga444` -/

structure Vga444 where
  vgaRed : BitVec 4
  vgaGreen : BitVec 4
  vgaBlue : BitVec 4
  vgaHsync : Bool
  vgaVsync : Bool
  hCounter : BitVec 10
  vCounter : BitVec 10
  address : BitVec 17
  blank : Bool
deriving DecidableEq, Repr

namespace Vga444

/-! Timing constants. -/

def hStartSync : ℕ := 640 + 16

def hEndSync : ℕ := 640 + 16 + 96

def hMaxCount : ℕ := 800

def vStartSync : ℕ := 480 + 10

def vEndSync : ℕ := 480 + 10 + 2

def vMaxCount : ℕ := 480 + 10 + 2 + 33

def hsyncActive : Bool := false

def vsyncActive : Bool := false

/-- The `initial` values; the outputs have none. -/
structure PowerUp (s : Vga444) : Prop where
  hCounter : s.hCounter = 0
  vCounter : s.vCounter = 0
  address : s.address = 0
  blank : s.blank = true

/-- One edge of `clk25`. -/
def clock (framePixel : BitVec 16) (s : Vga444) : Vga444 where
  hCounter := if s.hCounter.toNat = hMaxCount - 1 then 0 else s.hCounter + 1
  vCounter :=
    if s.hCounter.toNat = hMaxCount - 1 then (if s.vCounter.toNat = vMaxCount - 1 then 0 else s.vCounter + 1)
    else s.vCounter
  vgaRed := if s.blank = false then pixelR framePixel else 0
  vgaGreen := if s.blank = false then pixelG framePixel else 0
  vgaBlue := if s.blank = false then pixelB framePixel else 0
  -- a 320 by 240 image in the middle of the screen
  address :=
    if 360 ≤ s.vCounter.toNat ∨ s.vCounter.toNat < 120 then 0
    else if s.hCounter.toNat < 480 ∧ 160 ≤ s.hCounter.toNat then s.address + 1 else s.address
  blank :=
    if 360 ≤ s.vCounter.toNat ∨ s.vCounter.toNat < 120 then true
    else !decide (s.hCounter.toNat < 480 ∧ 160 ≤ s.hCounter.toNat)
  -- one has been added to include the latency of the frame buffer
  vgaHsync := if hStartSync < s.hCounter.toNat ∧ s.hCounter.toNat ≤ hEndSync then hsyncActive else !hsyncActive
  vgaVsync := if vStartSync ≤ s.vCounter.toNat ∧ s.vCounter.toNat < vEndSync then vsyncActive else !vsyncActive

/-- What the monitor gets. -/
def colour (s : Vga444) : BitVec 4 × BitVec 4 × BitVec 4 := (s.vgaRed, s.vgaGreen, s.vgaBlue)

/-! ## Positions -/

def col (n : ℕ) : ℕ := n % 800

def row (n : ℕ) : ℕ := n / 800 % 525

/-- The position is in the window of the picture. -/
def Inside (n : ℕ) : Prop := (160 ≤ col n ∧ col n < 480) ∧ 120 ≤ row n ∧ row n < 360

instance (n : ℕ) : Decidable (Inside n) := inferInstanceAs (Decidable (_ ∧ _))

/-- The cell of the picture at a position of the window. -/
def cell (n : ℕ) : ℕ := 320 * (row n - 120) + (col n - 160)

/-- The position of cell `a` in the `k`-th screen. -/
def positionOf (k a : ℕ) : ℕ := 420000 * k + 800 * (120 + a / 320) + (160 + a % 320)

/-- The address after `n` edges. -/
def addressAt (n : ℕ) : ℕ :=
  if row n < 120 then 0
  else if row n < 360 then 320 * (row n - 120) + (min (col n) 480 - 160)
  else if row n = 360 ∧ col n = 0 then frameSize else 0

/-- `blank` after `n` edges: it is late by one edge. -/
def blankAt : ℕ → Bool
  | 0 => true
  | n + 1 => !decide (Inside n)

theorem next_position (n : ℕ) :
    (col n = 799 ∧ col (n + 1) = 0 ∧ row (n + 1) = if row n = 524 then 0 else row n + 1) ∨
      (col n < 799 ∧ col (n + 1) = col n + 1 ∧ row (n + 1) = row n) := by
  unfold col row
  split_ifs <;> omega

theorem col_lt (n : ℕ) : col n < 800 := Nat.mod_lt _ (by omega)

theorem row_lt (n : ℕ) : row n < 525 := Nat.mod_lt _ (by omega)

theorem addressAt_of_inside {n : ℕ} (h : Inside n) : addressAt n = cell n := by
  obtain ⟨⟨h1, h2⟩, h3, h4⟩ := h
  unfold addressAt cell
  rw [if_neg (by omega), if_pos h4, Nat.min_eq_left h2.le]

theorem cell_lt {n : ℕ} (h : Inside n) : cell n < frameSize := by
  have hfs := frameSize_eq
  obtain ⟨⟨h1, h2⟩, h3, h4⟩ := h
  unfold cell
  omega

/-- Every cell has its position in every screen. -/
theorem inside_positionOf {a : ℕ} (k : ℕ) (ha : a < frameSize) :
    Inside (positionOf k a) ∧ cell (positionOf k a) = a := by
  have hfs := frameSize_eq
  have hcol : col (positionOf k a) = 160 + a % 320 := by
    unfold col positionOf
    omega
  have hrow : row (positionOf k a) = 120 + a / 320 := by
    unfold row positionOf
    omega
  unfold Inside cell
  rw [hcol, hrow]
  omega

/-- After `n` edges. -/
structure At (n : ℕ) (s : Vga444) : Prop where
  hCounter : s.hCounter.toNat = col n
  vCounter : s.vCounter.toNat = row n
  address : s.address.toNat = addressAt n
  blank : s.blank = blankAt n

theorem PowerUp.at {s : Vga444} (h : s.PowerUp) : At 0 s := by
  refine ⟨?_, ?_, ?_, h.blank⟩
  · rw [h.hCounter]
    rfl
  · rw [h.vCounter]
    rfl
  · rw [h.address]
    rfl

section Edge

variable {n : ℕ} {s : Vga444} {p : BitVec 16}

theorem At.counters_clock (h : At n s) :
    (s.clock p).hCounter.toNat = col (n + 1) ∧ (s.clock p).vCounter.toNat = row (n + 1) := by
  have hcol := col_lt n
  have hrow := row_lt n
  show (if s.hCounter.toNat = 799 then 0 else s.hCounter + 1).toNat = _ ∧
    (if s.hCounter.toNat = 799 then (if s.vCounter.toNat = 524 then 0 else s.vCounter + 1) else s.vCounter).toNat = _
  have hh : (s.hCounter + 1).toNat = (col n + 1) % 1024 := by
    rw [BitVec.toNat_add, h.hCounter]
    rfl
  have hv : (s.vCounter + 1).toNat = (row n + 1) % 1024 := by
    rw [BitVec.toNat_add, h.vCounter]
    rfl
  rw [h.hCounter, h.vCounter]
  rcases next_position n with ⟨hlast, hc, hr⟩ | ⟨hlt, hc, hr⟩
  · rw [if_pos hlast, if_pos hlast, hc, hr]
    refine ⟨rfl, ?_⟩
    split_ifs
    · rfl
    · rw [hv]
      omega
  · rw [if_neg (by omega), if_neg (by omega), hc, hr]
    refine ⟨?_, h.vCounter⟩
    rw [hh]
    omega

theorem At.address_clock (h : At n s) : (s.clock p).address.toNat = addressAt (n + 1) := by
  have hfs := frameSize_eq
  have hcol := col_lt n
  have hrow := row_lt n
  show (if 360 ≤ s.vCounter.toNat ∨ s.vCounter.toNat < 120 then 0
    else if s.hCounter.toNat < 480 ∧ 160 ≤ s.hCounter.toNat then s.address + 1 else s.address).toNat = _
  rw [h.hCounter, h.vCounter]
  have hnext := next_position n
  split_ifs with hout hin
  · -- outside the rows of the picture
    show 0 = addressAt (n + 1)
    unfold addressAt
    split_ifs at hnext ⊢ <;> omega
  · have hinside : Inside n := by
      unfold Inside
      omega
    have haddr : addressAt n = cell n := addressAt_of_inside hinside
    have hlt := cell_lt hinside
    rw [BitVec.toNat_add, h.address, haddr]
    unfold cell at hlt ⊢
    unfold addressAt
    show (_ + 1) % 131072 = _
    split_ifs at hnext ⊢ <;> omega
  · rw [h.address]
    unfold addressAt
    split_ifs at hnext ⊢ <;> omega

theorem At.blank_clock (h : At n s) : (s.clock p).blank = blankAt (n + 1) := by
  show (if 360 ≤ s.vCounter.toNat ∨ s.vCounter.toNat < 120 then true
    else !decide (s.hCounter.toNat < 480 ∧ 160 ≤ s.hCounter.toNat)) = !decide (Inside n)
  rw [h.hCounter, h.vCounter]
  split_ifs with hout
  · have hnot : ¬ Inside n := by
      unfold Inside
      omega
    rw [decide_eq_false hnot]
    rfl
  · have hiff : (col n < 480 ∧ 160 ≤ col n) ↔ Inside n := by
      unfold Inside
      omega
    rw [decide_eq_decide.mpr hiff]

theorem At.clock (h : At n s) : At (n + 1) (s.clock p) :=
  ⟨h.counters_clock.1, h.counters_clock.2, h.address_clock, h.blank_clock⟩

theorem At.colour_clock (h : At n s) :
    (s.clock p).colour = if blankAt n = false then (pixelR p, pixelG p, pixelB p) else (0, 0, 0) := by
  show (if s.blank = false then _ else _, if s.blank = false then _ else _, if s.blank = false then _ else _) = _
  rw [h.blank]
  split_ifs <;> rfl

/-- Counted from a position, the line pulse is in its place two edges later. -/
theorem At.vgaHsync_clock (h : At (n + 1) s) : (s.clock p).vgaHsync = false ↔ hStartSync ≤ col n ∧ col n < hEndSync := by
  show (if 656 < s.hCounter.toNat ∧ s.hCounter.toNat ≤ 752 then false else true) = false ↔ 656 ≤ col n ∧ col n < 752
  rw [h.hCounter]
  have hnext := next_position n
  split_ifs with hc <;> simp <;> split_ifs at hnext <;> omega

theorem At.vgaVsync_clock (h : At n s) : (s.clock p).vgaVsync = false ↔ vStartSync ≤ row n ∧ row n < vEndSync := by
  show (if 490 ≤ s.vCounter.toNat ∧ s.vCounter.toNat < 492 then false else true) = false ↔ 490 ≤ row n ∧ row n < 492
  rw [h.vCounter]
  split_ifs with hc <;> simp <;> omega

end Edge

end Vga444

/-! ## With the frame buffer -/

/-- `u_vga_frame_buffer` and `Inst_vga`. -/
structure Display where
  uVgaFrameBuffer : DualRam (BitVec 16)
  instVga : Vga444

namespace Display

open Vga444

/-- In a cycle of `clk100`. -/
structure In where
  /-- It ends with an edge of `clk25`. -/
  clk25 : Bool
  objDetWren : Bool
  objDetAddr : BitVec 17
  vgaBramIn : BitVec 16
  /-- What the buffer reads outside its depth. -/
  oob : BitVec 16
deriving DecidableEq, Repr

def clock (i : In) (s : Display) : Display where
  uVgaFrameBuffer := s.uVgaFrameBuffer.clock frameSize i.objDetWren i.objDetAddr.toNat i.vgaBramIn i.clk25
    s.instVga.address.toNat i.oob
  instVga := if i.clk25 then s.instVga.clock s.uVgaFrameBuffer.doutb else s.instVga

/-- The cells of the frame buffer. -/
def mem (s : Display) : ℕ → BitVec 16 := s.uVgaFrameBuffer.mem

/-- The part of a cell the monitor gets. -/
def rgb (p : BitVec 16) : BitVec 4 × BitVec 4 × BitVec 4 := (pixelR p, pixelG p, pixelB p)

/-- The number of edges of `clk25` before cycle `t`. -/
def edges (ins : ℕ → In) (t : ℕ) : ℕ := Nat.count (fun z => (ins z).clk25 = true) t

section Run

variable {s₀ : Display} {ins : ℕ → In} {t u w : ℕ}

theorem clock_of_edge (h : (ins t).clk25 = true) :
    (run clock s₀ ins (t + 1)).instVga =
      (run clock s₀ ins t).instVga.clock (run clock s₀ ins t).uVgaFrameBuffer.doutb := if_pos h

theorem clock_of_no_edge (s₀ : Display) (h : (ins t).clk25 = false) :
    (run clock s₀ ins (t + 1)).instVga = (run clock s₀ ins t).instVga ∧
      (run clock s₀ ins (t + 1)).uVgaFrameBuffer.doutb = (run clock s₀ ins t).uVgaFrameBuffer.doutb := by
  refine ⟨if_neg (by rw [h]; exact Bool.false_ne_true), ?_⟩
  show (if (ins t).clk25 = true then _ else _) = _
  rw [h]
  rfl

theorem doutb_of_edge (h : (ins t).clk25 = true) {a : ℕ} (ha : (run clock s₀ ins t).instVga.address.toNat = a)
    (hlt : a < frameSize) : (run clock s₀ ins (t + 1)).uVgaFrameBuffer.doutb = (run clock s₀ ins t).mem a := by
  show ((run clock s₀ ins t).uVgaFrameBuffer.clock frameSize _ _ _ (ins t).clk25
    (run clock s₀ ins t).instVga.address.toNat _).doutb = _
  rw [h, ha]
  exact DualRam.clock_doutb_of_lt hlt

theorem edges_succ (h : (ins t).clk25 = true) : edges ins (t + 1) = edges ins t + 1 :=
  Nat.count_succ_eq_succ_count_iff.mpr h

theorem at_run (h₀ : s₀.instVga.PowerUp) (t : ℕ) : At (edges ins t) (run clock s₀ ins t).instVga := by
  induction t with
  | zero => exact h₀.at
  | succ t ih =>
    cases hc : (ins t).clk25 with
    | true =>
      rw [clock_of_edge hc, edges_succ hc]
      exact ih.clock
    | false =>
      have hcount : edges ins (t + 1) = edges ins t := Nat.count_succ_eq_count_iff.mpr (by simp [hc])
      rw [(clock_of_no_edge s₀ hc).1, hcount]
      exact ih

/-- From an edge to the next one nothing of the display moves. -/
theorem between_edges (s₀ : Display) (hu : (ins u).clk25 = true) (hw : edges ins w = edges ins u + 1) :
    (run clock s₀ ins w).instVga = (run clock s₀ ins (u + 1)).instVga ∧
      (run clock s₀ ins w).uVgaFrameBuffer.doutb = (run clock s₀ ins (u + 1)).uVgaFrameBuffer.doutb := by
  have hkth : Kth (fun z => (ins z).clk25 = true) (edges ins u) u := ⟨hu, rfl⟩
  obtain ⟨hlt, hnone⟩ := hkth.none hw
  clear hw
  induction w, hlt using Nat.le_induction with
  | base => exact ⟨rfl, rfl⟩
  | succ w hlt ih =>
    have hlow : (ins w).clk25 = false := Bool.not_eq_true _ ▸ hnone w hlt (Nat.lt_succ_self w)
    obtain ⟨hvga, hdout⟩ := ih fun z h1 h2 => hnone z h1 (by omega)
    obtain ⟨hvga', hdout'⟩ := clock_of_no_edge s₀ hlow
    exact ⟨hvga'.trans hvga, hdout'.trans hdout⟩

/-- The colour and the line pulse two edges after a position. -/
theorem shown (h₀ : s₀.instVga.PowerUp) (hu : (ins u).clk25 = true) (hw : edges ins w = edges ins u + 2) :
    (run clock s₀ ins w).instVga.colour =
        (if Inside (edges ins u) then rgb ((run clock s₀ ins u).mem (cell (edges ins u))) else (0, 0, 0)) ∧
      ((run clock s₀ ins w).instVga.vgaHsync = false ↔
        hStartSync ≤ col (edges ins u) ∧ col (edges ins u) < hEndSync) := by
  obtain ⟨v, hvw, hv, hcount⟩ := exists_kth (k := edges ins u + 1) hw
  have hcount' : edges ins v = edges ins u + 1 := hcount
  have hatu : At (edges ins u) (run clock s₀ ins u).instVga := at_run h₀ u
  have hatv : At (edges ins u + 1) (run clock s₀ ins v).instVga := hcount' ▸ at_run h₀ v
  have hdout := (between_edges s₀ hu hcount').2
  rw [(between_edges s₀ hv (by rw [hw, hcount'])).1, clock_of_edge hv, hdout]
  refine ⟨?_, hatv.vgaHsync_clock⟩
  rw [hatv.colour_clock]
  by_cases hin : Inside (edges ins u)
  · have haddr := hatu.address.trans (addressAt_of_inside hin)
    have hblank : blankAt (edges ins u + 1) = false := by
      show (!decide (Inside _)) = false
      rw [decide_eq_true hin]
      rfl
    rw [if_pos hblank, if_pos hin, doutb_of_edge hu haddr (cell_lt hin)]
    rfl
  · have hblank : blankAt (edges ins u + 1) = true := by
      show (!decide (Inside _)) = true
      rw [decide_eq_false hin]
      rfl
    rw [hblank, if_neg Bool.true_eq_false.mp, if_neg hin]

theorem colour_of_cell (h₀ : s₀.instVga.PowerUp) (hu : (ins u).clk25 = true) {k a : ℕ} (ha : a < frameSize)
    (hpos : edges ins u = positionOf k a) (hw : edges ins w = edges ins u + 2) :
    (run clock s₀ ins w).instVga.colour = rgb ((run clock s₀ ins u).mem a) := by
  obtain ⟨hin, hcell⟩ := inside_positionOf k ha
  rw [← hpos] at hin hcell
  rw [(shown h₀ hu hw).1, if_pos hin, hcell]

end Run

/-- **What the monitor shows.**  Two edges of `clk25` after the counters have been at a position, the colour is that of
the cell of the window at it, as it was in the buffer at the first one of them, and black outside the window; no read
outside the buffer is shown, and every cell is shown in every screen of 420000 edges.  The line pulse is in its
place for these colours, and the frame pulse one edge before them. -/
theorem picture_scanned (s₀ : Display) (h₀ : s₀.instVga.PowerUp) (ins : ℕ → In) (r : ℕ → Display)
    (hr : r = run clock s₀ ins) (u : ℕ) (hu : (ins u).clk25 = true) :
    (∀ w, edges ins w = edges ins u + 2 →
      ((Inside (edges ins u) ∧ cell (edges ins u) < frameSize ∧
          (r w).instVga.colour = rgb ((r u).mem (cell (edges ins u)))) ∨
        (¬ Inside (edges ins u) ∧ (r w).instVga.colour = (0, 0, 0))) ∧
      ((r w).instVga.vgaHsync = false ↔ hStartSync ≤ col (edges ins u) ∧ col (edges ins u) < hEndSync)) ∧
    (∀ w, edges ins w = edges ins u + 1 →
      ((r w).instVga.vgaVsync = false ↔ vStartSync ≤ row (edges ins u) ∧ row (edges ins u) < vEndSync)) ∧
    ∀ k a, a < frameSize → edges ins u = positionOf k a →
      ∀ w, edges ins w = edges ins u + 2 → (r w).instVga.colour = rgb ((r u).mem a) := by
  subst hr
  refine ⟨fun w hw => ⟨?_, (shown h₀ hu hw).2⟩, fun w hw => ?_, fun k a ha hpos w hw => colour_of_cell h₀ hu ha hpos hw⟩
  · by_cases hin : Inside (edges ins u)
    · exact Or.inl ⟨hin, cell_lt hin, (shown h₀ hu hw).1.trans (if_pos hin)⟩
    · exact Or.inr ⟨hin, (shown h₀ hu hw).1.trans (if_neg hin)⟩
  · rw [(between_edges s₀ hu hw).1, clock_of_edge hu]
    exact (at_run h₀ u).vgaVsync_clock

/-- A white picture, both clocks alike. -/
def whiteScreen : Display :=
  ⟨⟨fun _ => 0x0fff, 0⟩, ⟨0, 0, 0, false, false, 0, 0, 0, true⟩⟩

def unwritten : ℕ → In := fun _ => ⟨true, false, 0, 0, 0⟩

theorem edges_unwritten (t : ℕ) : edges unwritten t = t := Nat.count_iff_forall.mpr fun _ _ => rfl

theorem mem_whiteScreen (t : ℕ) : (run clock whiteScreen unwritten t).mem = fun _ => 0x0fff := by
  induction t with
  | zero => rfl
  | succ t ih =>
    rw [← ih]
    exact DualRam.clock_mem_of_not_wea

theorem picture_scanned_white :
    (run clock whiteScreen unwritten (positionOf 0 0 + 2)).instVga.colour = (15, 15, 15) := by
  have hu := edges_unwritten (positionOf 0 0)
  have hw := edges_unwritten (positionOf 0 0 + 2)
  obtain ⟨-, -, hcell⟩ := picture_scanned whiteScreen ⟨rfl, rfl, rfl, rfl⟩ unwritten _ rfl (positionOf 0 0) rfl
  rw [hcell 0 0 (by rw [frameSize_eq]; omega) hu _ (by omega), mem_whiteScreen]
  rfl

end Display

end SuspiciousPackage
