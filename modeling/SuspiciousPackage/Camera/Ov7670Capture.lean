import SuspiciousPackage.Sync.Run
import SuspiciousPackage.Stream.Pairing
import SuspiciousPackage.Camera.Downsampler
import Mathlib.Data.BitVec
import Mathlib.Data.List.MinMax

/-!
# Camera.Ov7670Capture — `ov7670_capture`

The decoder on the pixel clock of the camera: two bytes make a pixel, which is put on the write port of the immediate
frame buffer at the next address.  `wr_hold` tells how far the pixel is: `01` with its first byte latched, `10` with both.
What the camera sends is the stream of pairs (`href`, `d`) sampled since the last `vsync`; its pixels are the pairs of
`Pairing.pairs`.  In every state these are the pixels written before, the one on the port and the one in the latch
(`Decodes`), so a frame is written pixel by pixel in its order, after the word the frame before may have left on the port
(`frame_written`).
-/

namespace SuspiciousPackage

open Sync Pairing

structure Ov7670Capture where
  dLatch : BitVec 16
  address : BitVec 17
  addressNext : BitVec 17
  wrHold : BitVec 2
  cnt : BitVec 2
  dout : BitVec 16
  we : Bool
deriving DecidableEq, Repr

namespace Ov7670Capture

structure In where
  vsync : Bool
  href : Bool
  d : BitVec 8
deriving DecidableEq, Repr

/-- The initial values; `dout` and `we` have none. -/
def init (dout : BitVec 16) (we : Bool) : Ov7670Capture where
  dLatch := 0
  address := 0
  addressNext := 0
  wrHold := 0
  cnt := 0
  dout := dout
  we := we

/-- One edge of `pclk`. -/
def clock (i : In) (s : Ov7670Capture) : Ov7670Capture :=
  -- `we` and `dout` are left alone by `vsync`
  if i.vsync then { s with address := 0, addressNext := 0, wrHold := 0, cnt := 0 }
  else
    { s with
      address := if s.address.toNat < 76800 then s.addressNext else 76800
      we := s.wrHold.getLsbD 1
      wrHold := BitVec.ofBool (s.wrHold.getLsbD 0) ++ BitVec.ofBool (i.href && !s.wrHold.getLsbD 0)
      dLatch := s.dLatch.extractLsb' 0 8 ++ i.d
      addressNext := if s.wrHold.getLsbD 1 then s.addressNext + 1 else s.addressNext
      dout := if s.wrHold.getLsbD 1 then
          s.dLatch.extractLsb' 11 5 ++ s.dLatch.extractLsb' 5 6 ++ s.dLatch.extractLsb' 0 5
        else s.dout }

/-! ## The registers at an edge -/

section Edge

variable {i : In} {s : Ov7670Capture}

/-- `dout` takes the latch as it is. -/
theorem fields_eq (x : BitVec 16) :
    (x.extractLsb' 11 5 ++ x.extractLsb' 5 6 ++ x.extractLsb' 0 5 : BitVec 16) = x := by
  ext k hk
  simp only [BitVec.getElem_append, BitVec.getElem_extractLsb']
  split_ifs <;> grind

theorem clock_vsync (h : i.vsync = true) :
    s.clock i = { s with address := 0, addressNext := 0, wrHold := 0, cnt := 0 } := if_pos h

theorem getLsbD_bits (a b : Bool) : (BitVec.ofBool a ++ BitVec.ofBool b : BitVec 2).getLsbD 0 = b ∧
    (BitVec.ofBool a ++ BitVec.ofBool b : BitVec 2).getLsbD 1 = a := by
  cases a <;> cases b <;> decide

variable (h : i.vsync = false)
include h

theorem clock_wrHold :
    (s.clock i).wrHold = BitVec.ofBool (s.wrHold.getLsbD 0) ++ BitVec.ofBool (i.href && !s.wrHold.getLsbD 0) := by
  unfold clock
  rw [h]
  rfl

theorem clock_address :
    (s.clock i).address = if s.address.toNat < frameSize then s.addressNext else 76800 := by
  unfold clock
  rw [h]
  rfl

theorem clock_we : (s.clock i).we = s.wrHold.getLsbD 1 := by
  simp [clock, h]

theorem clock_opened : (s.clock i).wrHold.getLsbD 0 = (i.href && !s.wrHold.getLsbD 0) := by
  rw [clock_wrHold h, (getLsbD_bits _ _).1]

theorem clock_latched : (s.clock i).wrHold.getLsbD 1 = s.wrHold.getLsbD 0 := by
  rw [clock_wrHold h, (getLsbD_bits _ _).2]

theorem clock_dLatch : (s.clock i).dLatch = s.dLatch.extractLsb' 0 8 ++ i.d := by
  simp [clock, h]

theorem clock_addressNext :
    (s.clock i).addressNext = if s.wrHold.getLsbD 1 then s.addressNext + 1 else s.addressNext := by
  simp [clock, h]

theorem clock_dout : (s.clock i).dout = if s.wrHold.getLsbD 1 then s.dLatch else s.dout := by
  simp [clock, h, fields_eq]

end Edge

/-! ## What the camera sends -/

/-- A pixel has its first byte on top. -/
def pixel (p : BitVec 8 × BitVec 8) : BitVec 16 := p.1 ++ p.2

/-- The pixels of a stream of bytes with `href`. -/
def pixels (l : List (Bool × BitVec 8)) : List (BitVec 16) := (pairs l).map pixel

/-- The pixels that have reached the write port. -/
def presented (l : List (Bool × BitVec 8)) : List (BitVec 16) := pixels l.dropLast

/-- The pixels whose time on the write port is over. -/
def arrived (l : List (Bool × BitVec 8)) : List (BitVec 16) := pixels l.dropLast.dropLast

theorem presented_concat (l : List (Bool × BitVec 8)) (x : Bool × BitVec 8) : presented (l ++ [x]) = pixels l := by
  simp [presented]

theorem arrived_concat (l : List (Bool × BitVec 8)) (x : Bool × BitVec 8) : arrived (l ++ [x]) = presented l := by
  simp [arrived, presented]

theorem pixels_dropLast_prefix (l : List (Bool × BitVec 8)) : pixels l.dropLast <+: pixels l := by
  rcases List.eq_nil_or_concat l with rfl | ⟨l, x, rfl⟩
  · exact List.prefix_refl _
  · unfold pixels
    rw [List.concat_eq_append, List.dropLast_concat, pairs_concat, List.map_append]
    exact List.prefix_append _ _

theorem length_arrived_le (l : List (Bool × BitVec 8)) : 2 * (arrived l).length ≤ l.length - 2 := by
  have hle := length_pairs_le l.dropLast.dropLast
  rw [List.length_dropLast, List.length_dropLast] at hle
  unfold arrived pixels
  rw [List.length_map]
  omega

/-- The bytes sampled with `href` since the last `vsync`. -/
def samples (ins : ℕ → In) : ℕ → List (Bool × BitVec 8)
  | 0 => []
  | t + 1 => if (ins t).vsync then [] else samples ins t ++ [((ins t).href, (ins t).d)]

/-- The pixel of the frame that is on the write port.  Before its first byte `we` and `dout` are what the frame before
left, and what is on the port is none of its pixels. -/
def shown (l : List (Bool × BitVec 8)) (s : Ov7670Capture) : List (BitVec 16) :=
  if s.we = true ∧ l ≠ [] then [s.dout] else []

/-- The pixel of which both bytes are latched. -/
def held (s : Ov7670Capture) : List (BitVec 16) := if s.wrHold.getLsbD 1 then [s.dLatch] else []

/-- The state of the decoder after the bytes `l` of a frame. -/
structure Decodes (l : List (Bool × BitVec 8)) (s : Ov7670Capture) : Prop where
  held : pixels l = presented l ++ held s
  shown : presented l = arrived l ++ shown l s
  opened : opened l = if s.wrHold.getLsbD 0 then some (s.dLatch.extractLsb' 0 8) else none
  /-- A latched pixel is put on the port before the next one is complete. -/
  excl : s.wrHold.getLsbD 1 = true → s.wrHold.getLsbD 0 = false
  address : s.address.toNat = min (arrived l).length frameSize
  addressNext : s.addressNext.toNat = (presented l).length % 2 ^ 17

theorem decodes_init (dout : BitVec 16) (we : Bool) : Decodes [] (init dout we) where
  held := by simp [pixels, presented, Ov7670Capture.held, init]
  shown := by simp [presented, arrived, Ov7670Capture.shown]
  opened := by simp [init]
  excl := by simp [init]
  address := by simp [init, arrived, pixels]
  addressNext := by simp [init, presented, pixels]

theorem decodes_vsync {i : In} (h : i.vsync = true) (s : Ov7670Capture) : Decodes [] (s.clock i) := by
  rw [clock_vsync h]
  refine ⟨?_, ?_, ?_, ?_, ?_, ?_⟩
  · simp [pixels, presented, Ov7670Capture.held]
  · simp [presented, arrived, Ov7670Capture.shown]
  · simp
  · simp
  · simp [arrived, pixels]
  · simp [presented, pixels]

section Step

variable {l : List (Bool × BitVec 8)} {i : In} {s : Ov7670Capture}

theorem length_shown_le : (shown l s).length ≤ 1 := by
  unfold shown
  split_ifs <;> simp

/-- The latched pixel goes to the port. -/
theorem shown_clock (h : i.vsync = false) : shown (l ++ [(i.href, i.d)]) (s.clock i) = s.held := by
  unfold shown held
  rw [clock_we h, clock_dout h]
  cases s.wrHold.getLsbD 1 <;> simp

theorem extractLsb'_append (x y : BitVec 8) : (x ++ y : BitVec 16).extractLsb' 0 8 = y := by
  ext k hk
  simp only [BitVec.getElem_extractLsb', BitVec.getLsbD_append]
  rw [if_pos (by omega)]
  simp [BitVec.getLsbD_eq_getElem hk]

/-- **One byte of a frame.** -/
theorem decodes_clock (hd : Decodes l s) (h : i.vsync = false) : Decodes (l ++ [(i.href, i.d)]) (s.clock i) := by
  refine ⟨?_, ?_, ?_, ?_, ?_, ?_⟩
  · -- the byte closes the pixel whose first byte is in the latch
    unfold held
    rw [presented_concat, clock_latched h, clock_dLatch h]
    unfold pixels
    rw [pairs_concat, hd.opened, List.map_append]
    cases s.wrHold.getLsbD 0 <;> rfl
  · rw [presented_concat, arrived_concat, shown_clock h]
    exact hd.held
  · rw [opened_concat, clock_opened h, clock_dLatch h, extractLsb'_append, hd.opened]
    cases s.wrHold.getLsbD 0 <;> cases i.href <;> rfl
  · rw [clock_latched h, clock_opened h]
    intro hw
    rw [hw]
    exact Bool.and_false _
  · have hfs := frameSize_eq
    have hlen := congrArg List.length hd.shown
    have hle : (shown l s).length ≤ 1 := length_shown_le
    rw [List.length_append] at hlen
    rw [arrived_concat, clock_address h, hd.address]
    split_ifs with hlt
    · rw [hd.addressNext]
      omega
    · show 76800 = _
      omega
  · have hlen := congrArg List.length hd.held
    rw [List.length_append] at hlen
    rw [presented_concat, clock_addressNext h, hlen]
    unfold held
    split_ifs
    · rw [BitVec.toNat_add, hd.addressNext]
      show (_ + 1) % _ = (_ + 1) % _
      omega
    · exact hd.addressNext

end Step

/-! ## Runs -/

/-- The run from power-up. -/
def runOn (dout : BitVec 16) (we : Bool) (ins : ℕ → In) : ℕ → Ov7670Capture := run clock (init dout we) ins

/-- The write port: the word and its address while `we` is high. -/
def port (s : Ov7670Capture) : List (ℕ × BitVec 16) := if s.we then [(s.address.toNat, s.dout)] else []

/-- The writes made since the last `vsync`, in their order. -/
def writes (r : ℕ → Ov7670Capture) (ins : ℕ → In) : ℕ → List (ℕ × BitVec 16)
  | 0 => []
  | t + 1 => if (ins t).vsync then [] else writes r ins t ++ port (r t)

/-- The cycle since which there was no `vsync`. -/
def restart (ins : ℕ → In) : ℕ → ℕ
  | 0 => 0
  | t + 1 => if (ins t).vsync then t + 1 else restart ins t

/-- What the first cycle after a `vsync` still writes, when it is over. -/
def stale (r : ℕ → Ov7670Capture) (ins : ℕ → In) (t : ℕ) : List (ℕ × BitVec 16) :=
  if restart ins t < t then port (r (restart ins t)) else []

/-- The pixels of a frame with their addresses; those beyond the frame buffer go to its end. -/
def addressed (ps : List (BitVec 16)) : List (ℕ × BitVec 16) := ps.mapIdx fun k p => (min k frameSize, p)

theorem addressed_concat (ps : List (BitVec 16)) (p : BitVec 16) :
    addressed (ps ++ [p]) = addressed ps ++ [(min ps.length frameSize, p)] := by
  simp [addressed, List.mapIdx_append]

section Run

variable {dout : BitVec 16} {we : Bool} {ins : ℕ → In}

theorem runOn_succ (t : ℕ) : runOn dout we ins (t + 1) = (runOn dout we ins t).clock (ins t) := rfl

theorem samples_vsync {t : ℕ} (h : (ins t).vsync = true) : samples ins (t + 1) = [] := if_pos h

theorem samples_concat {t : ℕ} (h : (ins t).vsync = false) :
    samples ins (t + 1) = samples ins t ++ [((ins t).href, (ins t).d)] := by
  simp [samples, h]

theorem restart_vsync {t : ℕ} (h : (ins t).vsync = true) : restart ins (t + 1) = t + 1 := if_pos h

theorem restart_succ {t : ℕ} (h : (ins t).vsync = false) : restart ins (t + 1) = restart ins t := by
  simp [restart, h]

theorem restart_add_length (ins : ℕ → In) (t : ℕ) : restart ins t + (samples ins t).length = t := by
  induction t with
  | zero => rfl
  | succ t ih =>
    cases hv : (ins t).vsync
    · rw [restart_succ hv, samples_concat hv, List.length_append, ← Nat.add_assoc, ih]
      rfl
    · rw [restart_vsync hv, samples_vsync hv]
      rfl

theorem stale_vsync {r : ℕ → Ov7670Capture} {t : ℕ} (h : (ins t).vsync = true) : stale r ins (t + 1) = [] := by
  simp [stale, restart_vsync h]

theorem stale_succ {r : ℕ → Ov7670Capture} {t : ℕ} (h : (ins t).vsync = false) :
    stale r ins (t + 1) = port (r (restart ins t)) := by
  have hle := restart_add_length ins t
  unfold stale
  rw [restart_succ h, if_pos (by omega)]

theorem decodes_runOn (t : ℕ) : Decodes (samples ins t) (runOn dout we ins t) := by
  induction t with
  | zero => exact decodes_init dout we
  | succ t ih =>
    rw [runOn_succ]
    cases hv : (ins t).vsync
    · rw [samples_concat hv]
      exact decodes_clock ih hv
    · rw [samples_vsync hv]
      exact decodes_vsync hv _

/-- Each frame starts at address `0`. -/
theorem address_restart (t : ℕ) : (runOn dout we ins (restart ins t)).address = 0 := by
  induction t with
  | zero => rfl
  | succ t ih =>
    cases hv : (ins t).vsync
    · rw [restart_succ hv]
      exact ih
    · rw [restart_vsync hv, runOn_succ, clock_vsync hv]

/-- The pixels of a frame are written once each, in their order. -/
theorem writes_eq (t : ℕ) :
    writes (runOn dout we ins) ins t = stale (runOn dout we ins) ins t ++ addressed (arrived (samples ins t)) := by
  induction t with
  | zero => rfl
  | succ t ih =>
    unfold writes
    cases hv : (ins t).vsync
    · rw [if_neg (by simp), ih, stale_succ hv, samples_concat hv, arrived_concat]
      have hlen := restart_add_length ins t
      rcases List.eq_nil_or_concat (samples ins t) with hnil | ⟨l, x, hl⟩
      · -- the first cycle of the frame
        rw [hnil, List.length_nil, Nat.add_zero] at hlen
        rw [hnil, hlen]
        simp [stale, hlen, arrived, presented, pixels, addressed]
      · rw [hl, List.concat_eq_append, List.length_append, List.length_singleton] at hlen
        have hd : Decodes (samples ins t) (runOn dout we ins t) := decodes_runOn t
        have hport : addressed (presented (samples ins t)) =
            addressed (arrived (samples ins t)) ++ port (runOn dout we ins t) := by
          have hne : samples ins t ≠ [] := by simp [hl]
          rw [hd.shown]
          unfold shown port
          rw [hd.address]
          by_cases hw : (runOn dout we ins t).we = true
          · rw [if_pos ⟨hw, hne⟩, if_pos hw]
            exact addressed_concat _ _
          · rw [if_neg fun h => hw h.1, if_neg hw, List.append_nil, List.append_nil]
        rw [hport, ← List.append_assoc]
        unfold stale
        rw [if_pos (by omega)]
    · rw [if_pos rfl, stale_vsync hv, samples_vsync hv]
      rfl

/-- `vsync` leaves `we` and `dout` as they are. -/
theorem port_kept {u t : ℕ} (hut : u ≤ t) (hv : ∀ z, u ≤ z → z < t → (ins z).vsync = true) :
    (runOn dout we ins t).we = (runOn dout we ins u).we ∧ (runOn dout we ins t).dout = (runOn dout we ins u).dout := by
  induction t, hut using Nat.le_induction with
  | base => exact ⟨rfl, rfl⟩
  | succ t hut ih =>
    obtain ⟨hwe, hdout⟩ := ih fun z h1 h2 => hv z h1 (by omega)
    rw [runOn_succ, clock_vsync (hv t hut (Nat.lt_succ_self t)), ← hwe, ← hdout]
    exact ⟨rfl, rfl⟩

/-- **The decoder writes the picture the camera sends**, from power-up and on any bytes.  The writes since the last
`vsync` are the pixels of the stream in their order, one write each, with pixel `k` at address `k` up to the end of the
frame buffer, after the word left on the port, if `we` is still high, at address `0`; lines sent as bursts of whole
pixels are written one after the other, whatever is on the bus between them.  A `vsync` that finds a write on the port
does not take it off: it goes on at address `0`. -/
theorem frame_written (dout : BitVec 16) (we : Bool) (ins : ℕ → In) (t : ℕ) :
    writes (runOn dout we ins) ins t = stale (runOn dout we ins) ins t ++ addressed (arrived (samples ins t)) ∧
    (runOn dout we ins (restart ins t)).address = 0 ∧
    (∀ lines x y, samples ins t = send lines ++ [x, y] →
      writes (runOn dout we ins) ins t =
        port (runOn dout we ins (restart ins t)) ++ addressed (lines.flatMap fun line => line.1.map pixel)) ∧
    ∀ u < t, (∀ z, u ≤ z → z < t → (ins z).vsync = true) →
      (runOn dout we ins t).address = 0 ∧ (runOn dout we ins t).we = (runOn dout we ins u).we ∧
        (runOn dout we ins t).dout = (runOn dout we ins u).dout := by
  refine ⟨writes_eq t, address_restart t, ?_, ?_⟩
  · intro lines x y hl
    have hw : arrived (send lines ++ [x, y]) = lines.flatMap fun line => line.1.map pixel := by
      unfold arrived pixels
      rw [show send lines ++ [x, y] = send lines ++ [x] ++ [y] by simp, List.dropLast_concat, List.dropLast_concat,
        pairs_send, List.map_flatMap]
    have hlen := restart_add_length ins t
    rw [hl, List.length_append, List.length_cons] at hlen
    rw [writes_eq, hl, hw]
    unfold stale
    rw [if_pos (by omega)]
  · intro u hu hv
    obtain ⟨v, rfl⟩ := Nat.exists_eq_add_of_le' (show 1 ≤ t by omega)
    refine ⟨?_, port_kept hu.le hv⟩
    rw [runOn_succ, clock_vsync (hv v (by omega) (Nat.lt_succ_self v))]

end Run

end Ov7670Capture

end SuspiciousPackage
