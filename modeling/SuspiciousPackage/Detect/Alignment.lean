import SuspiciousPackage.Detect.PixelCounts

/-!
# Detect.Alignment — the comparison pipeline compares equal pixels

The delays of the pixel registers, of the two RAMs and of the difference registers cancel: in cycle `c` of a transfer
the difference is the one of pixel `c - 4` and the match the one of pixel `c - 6`, the difference RAM being written two
addresses behind the pixel it belongs to (`pixels_aligned`).
-/

namespace SuspiciousPackage

open Sync

namespace System

/-- The match seen in this cycle. -/
def matchPixel (i : In) (s : System) : Bool := (s.detector.path (s.detectorIn i)).matchPixel (s.datapathIn i)

section Proc

variable {s : System} {i : In} {c : ℕ}

/-- In `PROC_FRAME` the datapath is not reset. -/
theorem path_proc (h : s.downsampler.Inv) (hp : s.InPhase (.proc c)) (hc : c ≤ frameSize) :
    s.detector.path (s.detectorIn i) = s.datapath := by
  have hr : (s.controlOut i).resetnDatapath = true := by
    rw [controlOut_proc h hp hc]
    rfl
  show s.datapath.settle (s.controlOut i).resetnDatapath = _
  rw [hr, Datapath.settle_true]

theorem diffPixel_proc (h : s.downsampler.Inv) (hp : s.InPhase (.proc c)) (hc : c ≤ frameSize) :
    s.diffPixel i = (s.datapath.refFrameBuffer.dout ^^ s.datapath.currPixel) := by
  have hd : (s.datapathIn i).initDone = true := hp.2.1
  unfold diffPixel Datapath.diffPixel
  rw [path_proc h hp hc, hd, Bool.and_true]
  rfl

theorem matchPixel_proc (h : s.downsampler.Inv) (hp : s.InPhase (.proc c)) (hc : c ≤ frameSize) :
    s.matchPixel i = (s.datapath.diffPixelD2 && s.datapath.diffFrameBuffer.dout) := by
  have hd : (s.datapathIn i).initDone = true := hp.2.1
  unfold matchPixel Datapath.matchPixel
  rw [path_proc h hp hc, hd, Bool.and_true]
  rfl

/-- The difference RAM takes the difference seen. -/
theorem diffMem_proc (h : s.downsampler.Inv) (hp : s.InPhase (.proc c)) (hc : c ≤ frameSize) :
    (s.clock true i).diffMem = Function.update s.diffMem (c - 2) (s.diffPixel i) := by
  have ha := objDetAddr_of_beat h hp.2.2.1
  unfold diffMem
  rw [diffFrameBuffer_clock, controlOut_proc h hp hc]
  simp only [procOut, Control.Out.default_diffBramEnable, Ram.clock_write_readFirst, ha]

end Proc

/-- A transfer begins when `obj_det_wren` rises. -/
theorem wren_of_begins {s₀ : System} {ins : ℕ → In} (h : s₀.Sound) {t : ℕ} (hb : Begins (runFrom s₀ ins) t) :
    (runFrom s₀ ins t).downsampler.objDetWren = true ∧
      ∀ u, u + 1 = t → (runFrom s₀ ins u).downsampler.objDetWren = false := by
  constructor
  · unfold Downsampler.objDetWren
    rw [hb.1, Bool.or_true]
  · intro u hu
    rw [objDetWren_eq_beat (sound_runFrom h ins u).inv, beat_eq_none_iff.mpr (hb.2 u hu)]
    rfl

/-- **The pipeline never compares different pixels.**  From reset, for the transfer from cycle `t` on of a frame `Q`,
after `init_done`: in its cycle `c`, counted from the rise of `obj_det_wren`, the difference is the one of pixel `c - 4`
of `Q` and the reference, and it is written to the difference RAM at address `c - 2`; and when the frame `P` was
transferred before, also after `init_done`, the match is the one of the differences of pixel `c - 6` in `Q` and in `P`. -/
theorem pixels_aligned (s : System) (i : In) (ins : ℕ → In) (r : ℕ → System) (hr : r = runFrom (s.clock false i) ins)
    (t : ℕ) (hb : Begins r t) (hd : (r t).initDone = true) :
    ((r t).downsampler.objDetWren = true ∧ ∀ u, u + 1 = t → (r u).downsampler.objDetWren = false) ∧
    (∀ c, 4 ≤ c → c ≤ frameSize →
      (r (t + c)).diffPixel (ins (t + c)) = ((r t).refMem (c - 4) ^^ frameAt ins r t (c - 4)) ∧
      ((r (t + c)).controlOut (ins (t + c))).diffWren = true ∧
      ((r (t + c)).controlOut (ins (t + c))).diffAddr.toNat = c - 2 ∧
      (r (t + c + 1)).diffMem =
        Function.update (r (t + c)).diffMem (c - 2) ((r t).refMem (c - 4) ^^ frameAt ins r t (c - 4))) ∧
    (∀ p, Begins r p → (r p).initDone = true → Next (Begins r) p t → ∀ c, 6 ≤ c → c ≤ frameSize →
      (r (t + c)).matchPixel (ins (t + c)) =
        (((r t).refMem (c - 6) ^^ frameAt ins r t (c - 6)) && ((r t).refMem (c - 6) ^^ frameAt ins r p (c - 6)))) := by
  subst hr
  have h₀ := afterReset s i
  have hfs := frameSize_eq
  have hinv := fun c => (sound_runFrom h₀.sound ins (t + c)).inv
  have hlead := inPhase_lead (sound_runFrom h₀.sound ins t) hd ((begins_iff h₀.sound h₀.idle).mp hb)
  have hproc : ∀ c, 2 ≤ c → c ≤ frameSize → (runFrom (s.clock false i) ins (t + c)).InPhase (.proc c) := by
    intro c h2 hc
    have := (proc_phases h₀.sound hlead).2 (c - 2) (by omega)
    rwa [show t + 2 + (c - 2) = t + c by omega, show 2 + (c - 2) = c by omega] at this
  have hframe := fun c (h2 : 2 ≤ c) (hc : c ≤ frameSize) => inFrame_of_lead h₀ hlead h2 (show c ≤ frameSize + 1 by omega)
  refine ⟨wren_of_begins h₀.sound hb, fun c h4 hc => ?_, fun p hbp hdp hn c h6 hc => ?_⟩
  · have hp := hproc c (by omega) hc
    have hS := hframe c (by omega) hc
    have hdiff : (runFrom (s.clock false i) ins (t + c)).diffPixel (ins (t + c)) =
        ((runFrom (s.clock false i) ins t).refMem (c - 4) ^^ frameAt ins (runFrom (s.clock false i) ins) t (c - 4)) := by
      rw [diffPixel_proc (hinv c) hp hc, hS.refDout, hS.currPixel, decide_eq_true h4, Bool.true_and]
      rfl
    refine ⟨hdiff, ?_, ?_, ?_⟩
    · rw [controlOut_proc (hinv c) hp hc]
      rfl
    · rw [controlOut_proc (hinv c) hp hc]
      exact objDetAddr_of_beat (hinv c) hp.2.2.1
    · rw [runFrom_succ, diffMem_proc (hinv c) hp hc, hdiff]
  · have hS := hframe c (by omega) hc
    obtain ⟨a, rfl⟩ := Nat.exists_eq_add_of_le' h6
    have hprev := tally_begins h₀ hbp hdp hn
    have href : (runFrom (s.clock false i) ins t).refMem = (runFrom (s.clock false i) ins p).refMem :=
      congrArg Tally.ref hprev
    -- the difference of the frame before is read two addresses ahead
    have hmem : (runFrom (s.clock false i) ins t).tally.diff (a + 2) =
        ((runFrom (s.clock false i) ins t).refMem a ^^ frameAt ins (runFrom (s.clock false i) ins) p a) := by
      rw [hprev, diff_process_add_two (by omega), href]
      rfl
    rw [matchPixel_proc (hinv _) (hproc _ (by omega) hc) hc, hS.diffPixelD2, hS.diffDout,
      show a + 6 - 2 = a + 4 by omega, show a + 6 - 4 = a + 2 by omega, Nat.add_sub_cancel, diffBit_add_four, hmem]
    rfl

/-- The second processed one of black frames back to back: pixel `0` in the cycles `4` and `6`. -/
theorem pixels_aligned_black :
    (runFrom init blackFrames (beginCycle 2 + 4)).diffPixel (blackFrames (beginCycle 2 + 4)) =
        ((runFrom init blackFrames (beginCycle 2)).refMem 0 ^^
          frameAt blackFrames (runFrom init blackFrames) (beginCycle 2) 0) ∧
      (runFrom init blackFrames (beginCycle 2 + 6)).matchPixel (blackFrames (beginCycle 2 + 6)) =
        (((runFrom init blackFrames (beginCycle 2)).refMem 0 ^^
          frameAt blackFrames (runFrom init blackFrames) (beginCycle 2) 0) &&
        ((runFrom init blackFrames (beginCycle 2)).refMem 0 ^^
          frameAt blackFrames (runFrom init blackFrames) (beginCycle 1) 0)) := by
  have hfs := frameSize_eq
  rw [blackFrames_eq]
  obtain ⟨-, hdiff, hmatch⟩ := pixels_aligned init (blackFrames 0) _ _ (by rw [clock_reset_init]) (beginCycle 2)
    (begins_stillFrames (fun _ => true) ⟨0, 0, 1⟩ 2) (initDone_stillFrames _ _ (by omega))
  refine ⟨(hdiff 4 le_rfl (by omega)).1, ?_⟩
  exact hmatch (beginCycle 1) (begins_stillFrames _ _ 1) (initDone_stillFrames _ _ le_rfl) (next_begins_stillFrames _ _ 1)
    6 le_rfl (by omega)

end System

end SuspiciousPackage
