import SuspiciousPackage.Sync.Run
import SuspiciousPackage.Camera.Downsampler
import Mathlib.Algebra.BigOperators.Intervals

/-!
# Camera.RateLimit — transfers are uninterruptible and rate-limited

`frame_downsampler` alone, from reset, on any inputs: the invariant of its registers in every cycle, the length of a
transfer, and the number of `vsync` cycles it waits for before the next one (`transfers_rate_limited`).  `vsync_cnt`
counts modulo `2 ^ 32` and so never shows more cycles than there were.
-/

namespace SuspiciousPackage

open Sync Finset

namespace Downsampler

/-- The run from reset. -/
def runOn (ins : ℕ → In) : ℕ → Downsampler := run (clock true) init ins

variable {ins : ℕ → In}

theorem runOn_succ (t : ℕ) : runOn ins (t + 1) = (runOn ins t).clock true (ins t) := rfl

theorem inv_runOn (ins : ℕ → In) (t : ℕ) : Inv (runOn ins t) := run_inv inv_init (fun i _ h => inv_clock h i) t

/-- `obj_det_wren` rises in cycle `t`. -/
def Rises (r : ℕ → Downsampler) (t : ℕ) : Prop :=
  (r t).objDetWren = true ∧ ∀ u, u + 1 = t → (r u).objDetWren = false

/-- Cycle `e` is the first one after a reset or after the end of a transfer. -/
def Ended (r : ℕ → Downsampler) (e : ℕ) : Prop :=
  (r e).transfer = false ∧ ∀ u, u + 1 = e → (r u).transfer = true

/-! ## The cycles of a transfer -/

theorem beat_of_rises {t : ℕ} (h : Rises (runOn ins) t) : (runOn ins t).beat = some 0 := by
  obtain ⟨hw, hlow⟩ := h
  cases t with
  | zero => cases hw
  | succ t =>
    have hnone := beat_of_wren (inv_runOn ins t) (hlow t rfl)
    rw [objDetWren_eq (inv_runOn ins (t + 1)), runOn_succ] at hw
    rcases beat_clock_none (inv_runOn ins t) (ins t) hnone with h' | h'
    · rw [h'] at hw
      cases hw
    · exact h'

theorem beats_of_rises {t : ℕ} (h : Rises (runOn ins) t) :
    ∀ c ≤ frameSize + 1, (runOn ins (t + c)).beat = some c := by
  refine run_window (P := fun c (d : Downsampler) => d.beat = some c) (beat_of_rises h) ?_
  intro c hc hb
  exact beat_clock_some (inv_runOn ins _) _ hb (by omega)

/-! ## The idle time -/

theorem maxVsyncCnt_toNat (i : In) : (maxVsyncCnt i).toNat = 4 * i.decimationRate.toNat := by
  have hlt := i.decimationRate.isLt
  unfold maxVsyncCnt
  rw [BitVec.toNat_shiftLeft, BitVec.toNat_setWidth, Nat.shiftLeft_eq]
  omega

/-- A transfer that ends clears `vsync_cnt`. -/
theorem vsyncCnt_of_ended {e : ℕ} (h : Ended (runOn ins) e) : (runOn ins e).vsyncCnt = 0 := by
  obtain ⟨hlow, hhigh⟩ := h
  cases e with
  | zero => rfl
  | succ e =>
    have hinv := inv_runOn ins e
    have ht := hhigh e rfl
    rw [runOn_succ] at hlow ⊢
    by_cases hc : (runOn ins e).cnt.toNat ≤ frameSize
    · rw [clock_stream ht hc] at hlow
      cases hlow
    · rw [clock_finish ht (Nat.le_antisymm hinv.cnt_le (by omega))]

/-- While idle `vsync_cnt` only counts. -/
theorem vsyncCnt_clock_idle {d : Downsampler} (h : Inv d) {i : In} (ht : d.transfer = false) :
    (d.clock true i).vsyncCnt = nextVsyncCnt i d := by
  by_cases htr : Trigger i d
  · rw [clock_trigger htr]
  · rw [clock_hold ht (h.idle ht) htr]

theorem nextVsyncCnt_le {d : Downsampler} {i : In} :
    (nextVsyncCnt i d).toNat ≤ d.vsyncCnt.toNat + if i.vsync = true then 1 else 0 := by
  unfold nextVsyncCnt
  split_ifs with hv
  · rw [BitVec.toNat_add]
    exact Nat.mod_le _ _
  · exact le_rfl

/-- The counter shows at most the `vsync` cycles since the last transfer. -/
theorem vsyncCnt_le {e t : ℕ} (hend : Ended (runOn ins) e) (het : e ≤ t)
    (hidle : ∀ z, e ≤ z → z < t → (runOn ins z).transfer = false) :
    (runOn ins t).vsyncCnt.toNat ≤ #{z ∈ Ico e t | (ins z).vsync = true} := by
  induction t, het using Nat.le_induction with
  | base =>
    rw [vsyncCnt_of_ended hend]
    exact Nat.zero_le _
  | succ t het ih =>
    have hprev := ih fun z h1 h2 => hidle z h1 (by omega)
    rw [Finset.card_filter] at hprev
    rw [runOn_succ, vsyncCnt_clock_idle (inv_runOn ins t) (hidle t het (Nat.lt_succ_self t)), Finset.card_filter,
      Finset.sum_Ico_succ_top het]
    exact nextVsyncCnt_le.trans (Nat.add_le_add_right hprev _)

/-- A transfer starts in the cycle after a trigger. -/
theorem trigger_of_start {t : ℕ} (hlow : (runOn ins t).transfer = false) (hhigh : (runOn ins (t + 1)).transfer = true) :
    Trigger (ins t) (runOn ins t) := by
  by_contra htr
  rw [runOn_succ, clock_hold hlow ((inv_runOn ins t).idle hlow) htr, hlow] at hhigh
  cases hhigh

/-- **Transfers are uninterruptible and rate-limited**, from reset and on any inputs: the registers keep their invariant;
once `obj_det_wren` rises it stays high for exactly `frameSize + 2` cycles; and when a transfer starts in cycle `t + 1`,
the idle cycles before cycle `t`, in which it is triggered, had `vsync` high in at least `4 * decimation_rate` of them. -/
theorem transfers_rate_limited (ins : ℕ → In) :
    (∀ t, (runOn ins t).tdataAddr.toNat = (runOn ins t).cnt.toNat ∧ (runOn ins t).cnt.toNat ≤ frameSize + 1 ∧
      ((runOn ins t).tvalid = true → (runOn ins t).transfer = true) ∧
      ((runOn ins t).transfer = false → (runOn ins t).cnt.toNat = 0)) ∧
    (∀ t, Rises (runOn ins) t →
      (∀ c < frameSize + 2, (runOn ins (t + c)).objDetWren = true) ∧ (runOn ins (t + (frameSize + 2))).objDetWren = false) ∧
    (∀ e t, Ended (runOn ins) e → e ≤ t → (∀ z, e ≤ z → z ≤ t → (runOn ins z).transfer = false) →
      (runOn ins (t + 1)).transfer = true →
      4 * (ins t).decimationRate.toNat ≤ #{z ∈ Ico e t | (ins z).vsync = true}) := by
  refine ⟨fun t => ?_, fun t h => ⟨fun c hc => ?_, ?_⟩, fun e t hend het hidle hstart => ?_⟩
  · have h := inv_runOn ins t
    exact ⟨h.addr, h.cnt_le, h.valid, h.idle⟩
  · rw [objDetWren_eq (inv_runOn ins _), beats_of_rises h c (by omega)]
    rfl
  · have hlast : (runOn ins (t + (frameSize + 1) + 1)).beat = none := by
      rw [runOn_succ]
      exact beat_clock_last (inv_runOn ins _) _ (beats_of_rises h _ le_rfl)
    have hw := objDetWren_eq (inv_runOn ins (t + (frameSize + 1) + 1))
    rw [hlast] at hw
    rw [show t + (frameSize + 2) = t + (frameSize + 1) + 1 by omega]
    exact hw
  · have htr := (trigger_of_start (hidle t het le_rfl) hstart).1
    rw [maxVsyncCnt_toNat] at htr
    exact htr.trans (vsyncCnt_le hend het fun z h1 h2 => hidle z h1 h2.le)

end Downsampler

end SuspiciousPackage
