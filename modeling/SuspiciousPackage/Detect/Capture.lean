import SuspiciousPackage.Detect.BackToBack
import Mathlib.Logic.Function.Basic

/-!
# Detect.Capture — the reference capture

What `CAPTURE_REF` leaves in the reference RAM.  The FSM seizes a transfer in its cycle `e - 1` with `e = 1`, `2` or
`3` (the address is `0` in the cycles `0`, `1`, `2`) and stores the pixels presented in the cycles `e .. frameSize`;
in the last cycle `frameSize + 1` it only gives the pulse.  So pixel `frameSize - 1` is never stored, and pixel `0`
is not when the start bit is accepted in the second cycle of the transfer (`captured_ref`).
-/

namespace SuspiciousPackage

open Sync

namespace System

variable {s₀ : System} {ins : ℕ → In}

/-- The contents of the reference RAM. -/
def refMem (s : System) : ℕ → Bool := s.detector.datapath.refFrameBuffer.mem

/-- The contents of the difference RAM. -/
def diffMem (s : System) : ℕ → Bool := s.detector.datapath.diffFrameBuffer.mem

/-- The datum at the difference RAM's port. -/
def diffPixel (i : In) (s : System) : Bool := (s.detector.path (s.detectorIn i)).diffPixel (s.datapathIn i)

/-- The frame transferred from cycle `t` on: pixel `a` is presented in cycle `a + 2`. -/
def frameAt (ins : ℕ → In) (r : ℕ → System) (t a : ℕ) : Bool := (r (t + a + 2)).bwPixel (ins (t + a + 2))

theorem bwPixel_eq_frameAt {ins : ℕ → In} {r : ℕ → System} {t c : ℕ} (h : 2 ≤ c) :
    (r (t + c)).bwPixel (ins (t + c)) = frameAt ins r t (c - 2) := by
  unfold frameAt
  rw [show t + (c - 2) + 2 = t + c by omega]

section Step

variable {s : System} {i : In}

theorem refFrameBuffer_clock :
    (s.clock true i).detector.datapath.refFrameBuffer =
      s.detector.datapath.refFrameBuffer.clock .writeFirst (s.controlOut i).refBramEnable
        (s.controlOut i).refWren (s.controlOut i).refAddr.toNat (s.bwPixel i) := by
  show ((s.detector.datapath.settle (s.controlOut i).resetnDatapath).refFrameBuffer).clock _ _ _ _ _ = _
  cases (s.controlOut i).resetnDatapath <;> rfl

theorem diffFrameBuffer_clock :
    (s.clock true i).detector.datapath.diffFrameBuffer =
      s.detector.datapath.diffFrameBuffer.clock .readFirst (s.controlOut i).diffBramEnable
        (s.controlOut i).diffWren (s.controlOut i).diffAddr.toNat (s.diffPixel i) := by
  show ((s.detector.datapath.settle (s.controlOut i).resetnDatapath).diffFrameBuffer).clock _ _ _ _ _ = _
  cases (s.controlOut i).resetnDatapath <;> rfl

/-- Without `init_done` no difference is seen. -/
theorem diffPixel_of_not_initDone (hd : s.initDone = false) : s.diffPixel i = false := by
  have : (s.datapathIn i).initDone = false := hd
  simp [diffPixel, Datapath.diffPixel, this]

theorem refMem_of_not_wren (hw : (s.controlOut i).refWren = false) : (s.clock true i).refMem = s.refMem := by
  unfold refMem
  rw [refFrameBuffer_clock, hw]
  exact Ram.clock_mem_of_not_wea

theorem diffMem_of_not_wren (hw : (s.controlOut i).diffWren = false) :
    (s.clock true i).diffMem = s.diffMem := by
  unfold diffMem
  rw [diffFrameBuffer_clock, hw]
  exact Ram.clock_mem_of_not_wea

theorem refMem_capture (h : s.downsampler.Inv) {c : ℕ} (hp : s.InPhase (.capture c)) (hc : c ≤ frameSize) :
    (s.clock true i).refMem = Function.update s.refMem (c - 2) (s.bwPixel i) := by
  have ha := objDetAddr_of_beat h hp.2.2.1
  unfold refMem
  rw [refFrameBuffer_clock, controlOut_capture h hp hc]
  simp only [captureOut, Control.Out.default_refBramEnable, Ram.clock_write_writeFirst, ha]

theorem diffMem_capture (h : s.downsampler.Inv) {c : ℕ} (hp : s.InPhase (.capture c)) (hc : c ≤ frameSize) :
    (s.clock true i).diffMem = Function.update s.diffMem (c - 2) false := by
  have ha := objDetAddr_of_beat h hp.2.2.1
  unfold diffMem
  rw [diffFrameBuffer_clock, controlOut_capture h hp hc, diffPixel_of_not_initDone hp.2.1]
  simp only [captureOut, Control.Out.default_diffBramEnable, Ram.clock_write_readFirst, ha]

end Step

/-! ## Pixels of a transfer -/

theorem bufferedCapturePixel_clock {s : System} {i : In} (h : s.downsampler.Inv) {c : ℕ}
    (hb : s.beat = some c) (hc : c ≤ frameSize) :
    (s.clock true i).downsampler.bufferedCapturePixel = i.tdata := by
  unfold beat at hb
  rcases Downsampler.clock_cases h (downsamplerIn i) with ⟨h', -⟩ | ⟨h', -⟩ | ⟨c', -, -, -, h'⟩ | ⟨h', -⟩
  · rw [hb] at h'; cases h'
  · rw [hb] at h'; cases h'
  · exact h'
  · rw [hb] at h'; cases h'; omega

/-- Pixel `a` of a transfer is the word read one cycle earlier. -/
theorem frameAt_eq (h : s₀.Sound) {t a : ℕ} (hb : (runFrom s₀ ins t).beat = some 0) (ha : a < frameSize) :
    frameAt ins (runFrom s₀ ins) t a = suspPixelIn (ins (t + a + 2)).bwThres (ins (t + a + 1)).tdata := by
  have hbeat := transfer_beats h hb (a + 1) (by omega)
  have hpix := bufferedCapturePixel_clock (i := ins (t + (a + 1))) (sound_runFrom h _ _).inv hbeat (by omega)
  rw [← runFrom_succ] at hpix
  unfold frameAt bwPixel Downsampler.objDetPixel
  rw [show t + a + 2 = t + (a + 1) + 1 by omega, hpix]
  rfl

/-! ## Before and during the capture -/

/-- The state in cycle `c` of the transfer from cycle `t` on, seized so that cycle `e` is the first one stored:
the pixels stored so far over the contents `R` before. -/
structure Capturing (ins : ℕ → In) (r : ℕ → System) (R D : ℕ → Bool) (t e c : ℕ) (s : System) : Prop where
  pos : 1 ≤ e
  le : e ≤ 3
  le_cycle : e ≤ c
  begins : (r t).beat = some 0
  late : e = 3 ↔ (r (t + 1)).currState = .waitStart
  stored : ∀ a, e ≤ a + 2 → a + 2 < c → s.refMem a = frameAt ins r t a
  kept : ∀ a, (a = 0 → e = 3) → ¬ (e ≤ a + 2 ∧ a + 2 < c) → s.refMem a = R a
  diff : ∀ a, s.diffMem a = false ∨ s.diffMem a = D a

/-- Up to the capture the RAMs keep their contents; during it they are as `Capturing` says. -/
def CaptureInv (ins : ℕ → In) (r : ℕ → System) (t : ℕ) : Phase → Prop
  | .off => (r t).refMem = (r 0).refMem ∧ (r t).diffMem = (r 0).diffMem
  | .wait _ => (r t).refMem = (r 0).refMem ∧ (r t).diffMem = (r 0).diffMem
  | .capture c => ∃ t₀ e, t = t₀ + c ∧ Capturing ins r (r 0).refMem (r 0).diffMem t₀ e c (r t)
  | _ => True

/-- `SYNC_CAPTURE` is entered from `WAIT_START` on the start bit. -/
theorem waitStart_of_accept {s : System} {i : In} (hp : s.InPhase .off)
    (hn : (s.clock true i).currState = .syncCapture) : s.currState = .waitStart ∧ i.startCapture = true := by
  rw [clock_currState, controlOut_eq] at hn
  rcases hp.1 with hs | hs <;> simp only [currState] at hs <;> simp only [Control.comb, hs] at hn
  · split_ifs at hn <;> simp at hn
  · split_ifs at hn with hstart
    · simp at hn
    · rw [Bool.not_eq_false] at hstart
      exact ⟨hs, hstart⟩

/-- In `WAIT_START` the start bit is accepted at once. -/
theorem accept_of_waitStart {s : System} {i : In} (hs : s.currState = .waitStart) (hi : i.startCapture = true) :
    (s.clock true i).currState = .syncCapture := by
  have hc : (Detector.controlIn (s.detectorIn i)).startCapture = true := hi
  rw [clock_currState, controlOut_eq]
  simp only [currState] at hs
  simp [Control.comb, hs, hc]

/-- The seizing move: the first stored cycle is the next one. -/
theorem capturing_seize (h : s₀.Sound) (h0 : s₀.beat = none) {t c : ℕ} (hc : c ≤ 2)
    (hp : (runFrom s₀ ins t).InPhase (.wait (some c)))
    (hp' : (runFrom s₀ ins (t + 1)).InPhase (.capture (c + 1))) {R D : ℕ → Bool}
    (hR : (runFrom s₀ ins (t + 1)).refMem = R) (hD : (runFrom s₀ ins (t + 1)).diffMem = D) :
    ∃ t₀ e, t + 1 = t₀ + (c + 1) ∧
      Capturing ins (runFrom s₀ ins) R D t₀ e (c + 1) (runFrom s₀ ins (t + 1)) := by
  obtain ⟨t₀, rfl, hb⟩ := beat_back h h0 hp.2.2
  refine ⟨t₀, c + 1, by omega, by omega, by omega, le_rfl, hb, ?_, fun a h1 h2 => by omega,
    fun a _ _ => by rw [hR], fun a => Or.inr (by rw [hD])⟩
  -- the FSM state in cycle `1` of the transfer
  rcases show c = 0 ∨ c = 1 ∨ c = 2 by omega with rfl | rfl | rfl
  · have hs : (runFrom s₀ ins (t₀ + 1)).currState = .captureRef := hp'.1
    simp [hs]
  · simp [hp.1]
  · refine iff_of_true rfl ?_
    obtain ⟨p, hp₁, hn⟩ := phase_back h (t := t₀ + 1) hp
    generalize hb2 : some 2 = b at hn
    cases hn with
    | accept _ => exact (waitStart_of_accept hp₁ hp.1).1
    | waitIdle => cases hb2
    | waitBegin => cases hb2
    | waitPass c h1 _ => cases hb2; omega
    | waitEnd => cases hb2

/-- One more cycle of the capture. -/
theorem capturing_step (h : s₀.Sound) {t t₀ e c : ℕ} (ht : t = t₀ + c) (hc : c ≤ frameSize)
    (hp : (runFrom s₀ ins t).InPhase (.capture c)) {R D : ℕ → Bool}
    (hcap : Capturing ins (runFrom s₀ ins) R D t₀ e c (runFrom s₀ ins t)) :
    Capturing ins (runFrom s₀ ins) R D t₀ e (c + 1) (runFrom s₀ ins (t + 1)) := by
  have hinv := (sound_runFrom h ins t).inv
  have hle := hcap.le_cycle
  have hpos := hcap.pos
  have hmem : (runFrom s₀ ins (t + 1)).refMem =
      Function.update (runFrom s₀ ins t).refMem (c - 2) ((runFrom s₀ ins t).bwPixel (ins t)) :=
    refMem_capture hinv hp hc
  refine ⟨hpos, hcap.le, by omega, hcap.begins, hcap.late, fun a h1 h2 => ?_, fun a h1 h2 => ?_, fun a => ?_⟩
  · rw [hmem]
    by_cases hac : a = c - 2
    · rw [hac, Function.update_self, ht]
      unfold frameAt
      rw [show t₀ + (c - 2) + 2 = t₀ + c by omega]
    · rw [Function.update_of_ne hac]
      exact hcap.stored a h1 (by omega)
  · rw [hmem]
    -- the cell written now was seized before, or is the stale beat at address `0`
    have hac : a ≠ c - 2 := by
      rintro rfl
      by_cases h3 : c - 2 = 0
      · have := h1 h3; omega
      · omega
    rw [Function.update_of_ne hac]
    exact hcap.kept a h1 (by omega)
  · show (runFrom s₀ ins (t + 1)).diffMem a = false ∨ _
    rw [runFrom_succ, diffMem_capture hinv hp hc]
    by_cases hac : a = c - 2
    · rw [hac, Function.update_self]; exact Or.inl rfl
    · rw [Function.update_of_ne hac]; exact hcap.diff a

/-- `CaptureInv` holds along every run from phase `off`. -/
theorem captureInv_run (hinv : s₀.downsampler.Inv) (h0 : s₀.InPhase .off) (hb0 : s₀.beat = none) :
    ∀ t p, (runFrom s₀ ins t).InPhase p → CaptureInv ins (runFrom s₀ ins) t p := by
  have h : s₀.Sound := ⟨hinv, _, h0⟩
  refine phase_induction hinv h0 ⟨rfl, rfl⟩ fun t p p' hp hp' hn hJ => ?_
  have hi := (sound_runFrom h ins t).inv
  -- a move that writes nothing keeps both contents
  have keep : ((runFrom s₀ ins t).controlOut (ins t)).refWren = false →
      ((runFrom s₀ ins t).controlOut (ins t)).diffWren = false →
      (runFrom s₀ ins (t + 1)).refMem = (runFrom s₀ ins t).refMem ∧
      (runFrom s₀ ins (t + 1)).diffMem = (runFrom s₀ ins t).diffMem :=
    fun h1 h2 => ⟨refMem_of_not_wren h1, diffMem_of_not_wren h2⟩
  cases hn with
  | off | accept =>
    obtain ⟨h1, h2, -⟩ := controlOut_off (i := ins t) hp
    obtain ⟨k1, k2⟩ := keep h1 h2
    exact ⟨k1.trans hJ.1, k2.trans hJ.2⟩
  | waitIdle | waitBegin =>
    obtain ⟨k1, k2⟩ := keep (by rw [controlOut_wait_none hi hp]; rfl) (by rw [controlOut_wait_none hi hp]; rfl)
    exact ⟨k1.trans hJ.1, k2.trans hJ.2⟩
  | waitPass c h1 h2 =>
    obtain ⟨k1, k2⟩ := keep (by rw [controlOut_wait_high hi hp h1]; rfl)
      (by rw [controlOut_wait_high hi hp h1]; rfl)
    exact ⟨k1.trans hJ.1, k2.trans hJ.2⟩
  | waitEnd =>
    have h1 : 2 < frameSize + 1 := by rw [frameSize_eq]; omega
    obtain ⟨k1, k2⟩ := keep (by rw [controlOut_wait_high hi hp h1]; rfl)
      (by rw [controlOut_wait_high hi hp h1]; rfl)
    exact ⟨k1.trans hJ.1, k2.trans hJ.2⟩
  | seize c hc =>
    obtain ⟨k1, k2⟩ := keep (by rw [controlOut_wait_low hi hp hc]; rfl)
      (by rw [controlOut_wait_low hi hp hc]; rfl)
    exact capturing_seize h hb0 hc hp hp' (k1.trans hJ.1) (k2.trans hJ.2)
  | capture c hc =>
    obtain ⟨t₀, e, ht, hcap⟩ := hJ
    exact ⟨t₀, e, by omega, capturing_step h ht hc hp hcap⟩
  | captured => trivial
  | rest => trivial
  | begin => trivial
  | start => trivial
  | proc => trivial
  | procBeat _ _ => trivial
  | processed => trivial

end System

end SuspiciousPackage
