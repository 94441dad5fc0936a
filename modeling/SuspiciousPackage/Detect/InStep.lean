import SuspiciousPackage.Detect.BackToBack

/-!
# Detect.InStep — the downsampler and the FSM, which share no handshake, stay in step

After the reference capture each transfer gives one `frame_start` and one pass of `PROC_FRAME` over the addresses
`0, …, frameSize - 2`, and nothing happens outside transfers (`transfers_in_step`).
-/

namespace SuspiciousPackage

open Sync

namespace System

variable {s₀ : System} {ins : ℕ → In}

/-- The transfer beginning in cycle `t` is processed exactly once. -/
structure ProcessedOnce (r : ℕ → System) (ins : ℕ → In) (t : ℕ) : Prop where
  /-- The transfer streams for `frameSize + 2` cycles. -/
  wren : ∀ c ≤ frameSize + 1, (r (t + c)).downsampler.objDetWren = true
  /-- One `frame_start`, in the second cycle. -/
  frameStart : ∀ c ≤ frameSize + 1, (r (t + c)).frameStart (ins (t + c)) = true ↔ c = 1
  /-- One `diff_wren` for each address, in order. -/
  diffWren : ∀ c ≤ frameSize + 1,
    ((r (t + c)).controlOut (ins (t + c))).diffWren = true ↔ 2 ≤ c ∧ c ≤ frameSize
  diffAddr : ∀ c, 2 ≤ c → c ≤ frameSize → (r (t + c)).currState = .procFrame ∧
    ((r (t + c)).controlOut (ins (t + c))).diffAddr.toNat = c - 2
  /-- Afterwards there is an idle cycle, with the FSM back in `SYNC_CAPTURE`. -/
  idle : (r (t + frameSize + 2)).downsampler.objDetWren = false
  resync : (r (t + frameSize + 2)).currState = .syncCapture

theorem processedOnce_of_lead (h : s₀.Sound) {t : ℕ} (hp : (runFrom s₀ ins t).InPhase .lead) :
    ProcessedOnce (runFrom s₀ ins) ins t := by
  have hinv := fun c => (sound_runFrom h ins c).inv
  have hfs := frameSize_eq
  obtain ⟨hs, hproc⟩ := proc_phases h hp
  have hpc : ∀ c, 2 ≤ c → c ≤ frameSize + 1 → (runFrom s₀ ins (t + c)).InPhase (.proc c) := by
    intro c h2 hc
    have := hproc (c - 2) (by omega)
    rwa [show t + 2 + (c - 2) = t + c by omega, show 2 + (c - 2) = c by omega] at this
  have hbeats := transfer_beats h hp.2.2
  -- the cycles `0`, `1`, `2 .. frameSize`, `frameSize + 1` of the transfer
  have hsplit : ∀ c ≤ frameSize + 1, c = 0 ∨ c = 1 ∨ (2 ≤ c ∧ c ≤ frameSize) ∨ c = frameSize + 1 := by
    intro c hc; omega
  have hlast := controlOut_processed (i := ins (t + (frameSize + 1))) (hinv _) (hpc _ (by omega) le_rfl)
  refine ⟨fun c hc => ?_, fun c hc => ?_, fun c hc => ?_, fun c h2 hc => ?_, ?_, ?_⟩
  · rw [objDetWren_eq_beat (hinv _), hbeats c hc]
    rfl
  · unfold frameStart
    rcases hsplit c hc with rfl | rfl | ⟨h2, h3⟩ | rfl
    · rw [Nat.add_zero, controlOut_lead (hinv _) hp]; simp
    · rw [controlOut_start hs]; simp
    · rw [controlOut_proc (hinv _) (hpc c h2 hc) h3]; simp [procOut]; omega
    · rw [hlast]; simp; omega
  · rcases hsplit c hc with rfl | rfl | ⟨h2, h3⟩ | rfl
    · rw [Nat.add_zero, controlOut_lead (hinv _) hp]; simp
    · rw [controlOut_start hs]; simp
    · rw [controlOut_proc (hinv _) (hpc c h2 hc) h3]; simp [procOut]; omega
    · rw [hlast]; simp
  · have hq := hpc c h2 (by omega)
    refine ⟨hq.1, ?_⟩
    rw [controlOut_proc (hinv _) hq hc]
    exact objDetAddr_of_beat (hinv _) hq.2.2.1
  · rw [objDetWren_eq_beat (hinv _), transfer_ends h hp.2.2]
    rfl
  · have hq := hpc (frameSize + 1) (by omega) le_rfl
    show (runFrom s₀ ins (t + (frameSize + 1) + 1)).currState = _
    rw [runFrom_succ, clock_currState, hlast]
    rfl

/-- **The downsampler and the FSM stay in step forever.**  From reset, in every cycle `t` with `init_done` high: a
transfer beginning in `t` is processed exactly once, and outside a transfer the FSM waits in `SYNC_CAPTURE` without
`frame_start` or `diff_wren`. -/
theorem transfers_in_step (s : System) (i : In) (ins : ℕ → In) (t : ℕ)
    (hd : (runFrom (s.clock false i) ins t).initDone = true) :
    (Begins (runFrom (s.clock false i) ins) t →
      ProcessedOnce (runFrom (s.clock false i) ins) ins t) ∧
    ((runFrom (s.clock false i) ins t).downsampler.objDetWren = false →
      (runFrom (s.clock false i) ins t).currState = .syncCapture ∧
      (runFrom (s.clock false i) ins t).frameStart (ins t) = false ∧
      ((runFrom (s.clock false i) ins t).controlOut (ins t)).diffWren = false) := by
  have h := sound_reset s i
  have ht := sound_runFrom h ins t
  constructor
  · intro hb
    rw [begins_iff h (beat_eq_none_iff.mpr rfl)] at hb
    exact processedOnce_of_lead h (inPhase_lead ht hd hb)
  · intro hw
    have hp := inPhase_rest ht hd (Downsampler.beat_of_wren ht.inv hw)
    rw [frameStart, controlOut_rest ht.inv hp]
    exact ⟨hp.1, rfl, rfl⟩

/-- The transfer after the reference, in a run with back-to-back transfers. -/
theorem transfers_in_step_backToBack :
    ProcessedOnce (runFrom (init.clock false (blackFrames 0)) blackFrames)
      blackFrames (beginCycle 1) :=
  (transfers_in_step init _ _ _ (lead_backToBack _ _ le_rfl).2.1).1
    ((begins_iff sound_init rfl).mpr (beat_beginCycle _ _ 1))

end System

end SuspiciousPackage
