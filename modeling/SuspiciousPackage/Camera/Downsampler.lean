import Mathlib.Data.Nat.Notation
import Mathlib.Tactic.Common

/-!
# Camera.Downsampler — `frame_downsampler`

Reads one frame out of the immediate frame buffer when the camera address is at the end of a frame and enough
`vsync` cycles have passed, and streams it to the object detection.  `Downsampler.clock` is the clocked process,
the output functions are the continuous assignments.
-/

namespace SuspiciousPackage

/-- Number of pixels in frame for QVGA. -/
def frameSize : ℕ := 76800

theorem frameSize_eq : frameSize = 76800 := rfl

/-- Registers of `frame_downsampler`. -/
structure Downsampler where
  tvalid : Bool
  transfer : Bool
  bufferedCapturePixel : BitVec 16
  cnt : BitVec 20
  tdataAddr : BitVec 17
  vsyncCnt : BitVec 32
deriving DecidableEq, Repr

namespace Downsampler

/-- Inputs of `frame_downsampler` (besides the clock and `resetn`). -/
structure In where
  captureAddr : BitVec 17
  decimationRate : BitVec 16
  vsync : Bool
  tdata : BitVec 16
deriving DecidableEq, Repr

/-- The values loaded by `resetn`. -/
def init : Downsampler where
  tvalid := false
  transfer := false
  bufferedCapturePixel := 0
  cnt := 0
  tdataAddr := 0
  vsyncCnt := 0

/-- The reset is asynchronous: the registers show the reset values while `resetn` is low. -/
def settle (resetn : Bool) (d : Downsampler) : Downsampler := if resetn then d else init

@[simp] theorem settle_true (d : Downsampler) : d.settle true = d := rfl

def objDetAddr (d : Downsampler) : BitVec 17 :=
  if 2 ≤ d.tdataAddr.toNat then d.tdataAddr - 2 else 0

def objDetWren (d : Downsampler) : Bool := d.tvalid || d.transfer

def objDetPixel (d : Downsampler) : BitVec 16 := d.bufferedCapturePixel

/-- `decimation_rate << 2` on the 20-bit wire. -/
def maxVsyncCnt (i : In) : BitVec 20 := i.decimationRate.setWidth 20 <<< 2

/-- `vsync_cnt` after the edge, unless a transfer ends. -/
def nextVsyncCnt (i : In) (d : Downsampler) : BitVec 32 :=
  if i.vsync then d.vsyncCnt + 1 else d.vsyncCnt

/-- The condition of the first branch: a transfer begins at this edge. -/
def Trigger (i : In) (d : Downsampler) : Prop :=
  (maxVsyncCnt i).toNat ≤ d.vsyncCnt.toNat ∧ d.transfer = false ∧ i.captureAddr.toNat = frameSize - 1

instance (i : In) (d : Downsampler) : Decidable (Trigger i d) := inferInstanceAs (Decidable (_ ∧ _))

def clock (resetn : Bool) (i : In) (d : Downsampler) : Downsampler :=
  if resetn = false then init
  else if Trigger i d then
    { d with vsyncCnt := nextVsyncCnt i d, transfer := true }
  else if d.transfer = true ∧ d.cnt.toNat ≤ frameSize then
    { tvalid := decide (0 < d.cnt.toNat)
      transfer := true
      bufferedCapturePixel := i.tdata
      cnt := d.cnt + 1
      tdataAddr := d.tdataAddr + 1
      vsyncCnt := nextVsyncCnt i d }
  else if d.cnt.toNat = frameSize + 1 then
    -- the assignment to `vsync_cnt` in this branch overrides the increment
    { d with cnt := 0, tvalid := false, tdataAddr := 0, transfer := false, vsyncCnt := 0 }
  else { d with vsyncCnt := nextVsyncCnt i d }

section Branches

variable {i : In} {d : Downsampler}

theorem clock_trigger (h : Trigger i d) :
    d.clock true i = { d with vsyncCnt := nextVsyncCnt i d, transfer := true } := by
  simp [clock, h]

theorem clock_stream (ht : d.transfer = true) (hc : d.cnt.toNat ≤ frameSize) :
    d.clock true i = ⟨decide (0 < d.cnt.toNat), true, i.tdata, d.cnt + 1, d.tdataAddr + 1,
      nextVsyncCnt i d⟩ := by
  have hn : ¬ Trigger i d := fun h => absurd h.2.1 (by simp [ht])
  simp [clock, hn, ht, hc]

theorem clock_finish (ht : d.transfer = true) (hc : d.cnt.toNat = frameSize + 1) :
    d.clock true i = ⟨false, false, d.bufferedCapturePixel, 0, 0, 0⟩ := by
  have hn : ¬ Trigger i d := fun h => absurd h.2.1 (by simp [ht])
  have hle : ¬ d.cnt.toNat ≤ frameSize := by omega
  unfold clock
  rw [if_neg (by simp), if_neg hn, if_neg (fun h => hle h.2), if_pos hc]

theorem clock_hold (ht : d.transfer = false) (hc : d.cnt.toNat = 0) (h : ¬ Trigger i d) :
    d.clock true i = { d with vsyncCnt := nextVsyncCnt i d } := by
  simp [clock, h, ht, hc]

end Branches

/-! ## Transfers -/

/-- The position in a transfer: `none` when idle, `some c` in its cycle `c`. -/
def beat (d : Downsampler) : Option ℕ := if d.transfer then some d.cnt.toNat else none

/-- What holds in every state reached from reset. -/
structure Inv (d : Downsampler) : Prop where
  addr : d.tdataAddr.toNat = d.cnt.toNat
  cnt_le : d.cnt.toNat ≤ frameSize + 1
  idle : d.transfer = false → d.cnt.toNat = 0
  valid : d.tvalid = true → d.transfer = true

theorem inv_init : Inv init := ⟨rfl, by simp [init], fun _ => rfl, by simp [init]⟩

theorem beat_eq_none {d : Downsampler} : d.beat = none ↔ d.transfer = false := by
  cases h : d.transfer <;> simp [beat, h]

theorem beat_eq_some {d : Downsampler} {c : ℕ} :
    d.beat = some c ↔ d.transfer = true ∧ d.cnt.toNat = c := by
  cases h : d.transfer <;> simp [beat, h]

theorem beat_le {d : Downsampler} (h : Inv d) {c : ℕ} (hc : d.beat = some c) : c ≤ frameSize + 1 :=
  (beat_eq_some.mp hc).2 ▸ h.cnt_le

theorem objDetWren_eq {d : Downsampler} (h : Inv d) : d.objDetWren = d.beat.isSome := by
  cases ht : d.transfer
  · have hv : d.tvalid = false := by
      by_contra hv
      simp [h.valid (by simpa using hv)] at ht
    simp [objDetWren, beat, ht, hv]
  · simp [objDetWren, beat, ht]

theorem beat_of_wren {d : Downsampler} (h : Inv d) (hw : d.objDetWren = false) : d.beat = none := by
  rw [objDetWren_eq h] at hw
  exact Option.isNone_iff_eq_none.mp (Option.isSome_eq_false_iff.mp hw)

/-- In cycle `c` of a transfer the address is `c - 2` (and `0` in the two lead-in cycles). -/
theorem objDetAddr_eq {d : Downsampler} (h : Inv d) {c : ℕ} (hc : d.beat = some c) :
    d.objDetAddr.toNat = c - 2 := by
  have h1 := h.addr
  have h2 := (beat_eq_some.mp hc).2
  have h3 := d.tdataAddr.isLt
  unfold objDetAddr
  split
  · simp only [BitVec.ofNat_eq_ofNat, BitVec.toNat_sub, BitVec.toNat_ofNat]; omega
  · show 0 = c - 2; omega

theorem tdataAddr_eq {d : Downsampler} (h : Inv d) {c : ℕ} (hc : d.beat = some c) : d.tdataAddr.toNat = c :=
  h.addr.trans (beat_eq_some.mp hc).2

theorem beat_of_trigger {d : Downsampler} {i : In} (h : Inv d) (htr : Trigger i d) :
    (d.clock true i).beat = some 0 := by
  have hc := h.idle htr.2.1
  rw [clock_trigger htr]
  exact beat_eq_some.mpr ⟨rfl, hc⟩

/-- **What a clock edge can do** to a state of the invariant. -/
theorem clock_cases {d : Downsampler} (h : Inv d) (i : In) :
    (d.beat = none ∧ (d.clock true i).beat = none ∧
      (d.clock true i).bufferedCapturePixel = d.bufferedCapturePixel) ∨
    (d.beat = none ∧ (d.clock true i).beat = some 0 ∧
      (d.clock true i).bufferedCapturePixel = d.bufferedCapturePixel) ∨
    (∃ c ≤ frameSize, d.beat = some c ∧ (d.clock true i).beat = some (c + 1) ∧
      (d.clock true i).bufferedCapturePixel = i.tdata) ∨
    (d.beat = some (frameSize + 1) ∧ (d.clock true i).beat = none ∧
      (d.clock true i).bufferedCapturePixel = d.bufferedCapturePixel) := by
  cases ht : d.transfer
  · have hc := h.idle ht
    by_cases htr : Trigger i d
    · exact Or.inr (Or.inl (by simp [clock_trigger htr, beat, ht, hc]))
    · exact Or.inl (by simp [clock_hold ht hc htr, beat, ht])
  · by_cases hc : d.cnt.toNat ≤ frameSize
    · refine Or.inr (Or.inr (Or.inl ⟨d.cnt.toNat, hc, by simp [beat, ht], ?_, ?_⟩))
      · have hfs := frameSize_eq
        simp [clock_stream ht hc, beat, BitVec.toNat_add]
        omega
      · rw [clock_stream ht hc]
    · have hc' : d.cnt.toNat = frameSize + 1 := Nat.le_antisymm h.cnt_le (by omega)
      exact Or.inr (Or.inr (Or.inr (by simp [clock_finish ht hc', beat, ht, hc'])))

/-- An idle downsampler stays idle or begins a transfer. -/
theorem beat_clock_none {d : Downsampler} (h : Inv d) (i : In) (hb : d.beat = none) :
    (d.clock true i).beat = none ∨ (d.clock true i).beat = some 0 := by
  rcases clock_cases h i with ⟨-, h', -⟩ | ⟨-, h', -⟩ | ⟨c, -, h', -⟩ | ⟨h', -⟩
  · exact Or.inl h'
  · exact Or.inr h'
  · cases hb.symm.trans h'
  · cases hb.symm.trans h'

theorem beat_clock_some {d : Downsampler} (h : Inv d) (i : In) {c : ℕ} (hb : d.beat = some c) (hc : c ≤ frameSize) :
    (d.clock true i).beat = some (c + 1) := by
  rcases clock_cases h i with ⟨h', -⟩ | ⟨h', -⟩ | ⟨c', -, h', h'', -⟩ | ⟨h', -⟩
  · cases hb.symm.trans h'
  · cases hb.symm.trans h'
  · cases hb.symm.trans h'
    exact h''
  · cases hb.symm.trans h'
    omega

theorem beat_clock_last {d : Downsampler} (h : Inv d) (i : In) (hb : d.beat = some (frameSize + 1)) :
    (d.clock true i).beat = none := by
  rcases clock_cases h i with ⟨h', -⟩ | ⟨h', -⟩ | ⟨c', hc, h', -⟩ | ⟨-, h', -⟩
  · cases hb.symm.trans h'
  · cases hb.symm.trans h'
  · cases hb.symm.trans h'
    omega
  · exact h'

theorem inv_clock {d : Downsampler} (h : Inv d) (i : In) : Inv (d.clock true i) := by
  cases ht : d.transfer
  · have hc := h.idle ht
    by_cases htr : Trigger i d
    · rw [clock_trigger htr]
      exact ⟨h.addr, h.cnt_le, by simp, fun _ => rfl⟩
    · rw [clock_hold ht hc htr]
      exact ⟨h.addr, h.cnt_le, h.idle, h.valid⟩
  · by_cases hc : d.cnt.toNat ≤ frameSize
    · have hfs := frameSize_eq
      have e1 : (d.cnt + 1).toNat = d.cnt.toNat + 1 := by rw [BitVec.toNat_add]; simp; omega
      have e2 : (d.tdataAddr + 1).toNat = d.tdataAddr.toNat + 1 := by
        have := h.addr
        rw [BitVec.toNat_add]; simp; omega
      rw [clock_stream ht hc]
      exact ⟨by simp only [e1, e2, h.addr], by simp only [e1]; omega, by simp, fun _ => rfl⟩
    · rw [clock_finish ht (Nat.le_antisymm h.cnt_le (by omega))]
      exact ⟨rfl, by simp, fun _ => rfl, by simp⟩

end Downsampler

end SuspiciousPackage
