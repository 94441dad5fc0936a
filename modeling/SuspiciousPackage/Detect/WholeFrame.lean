import SuspiciousPackage.Detect.Capture

/-!
# Detect.WholeFrame — is the captured reference one whole frame?

`captured_ref` is the contents of the reference RAM in the cycle `init_done` goes high: the pixels of the transfer just
ended, except that pixel `frameSize - 1` is never stored and pixel `0` is not when the start bit was accepted in the
second cycle of that transfer; there the RAM keeps what it held before.  `reference_whole_iff` is the exact condition
under which the RAM holds one whole transferred frame.
-/

namespace SuspiciousPackage

open Sync

namespace System

variable {s₀ : System} {ins : ℕ → In}

/-- The transfer from cycle `t₀` on was complete before cycle `t`. -/
def Transferred (r : ℕ → System) (t₀ t : ℕ) : Prop := Begins r t₀ ∧ t₀ + frameSize + 2 ≤ t

/-- `init_done` goes high in cycle `t` for the first time. -/
def InitDoneAt (r : ℕ → System) (t : ℕ) : Prop :=
  (r t).initDone = true ∧ ∀ u < t, (r u).initDone = false

/-- In cycle `t` the reference RAM holds the black/white pixels of one transferred frame. -/
def ReferenceWhole (ins : ℕ → In) (r : ℕ → System) (t : ℕ) : Prop :=
  ∃ t₀, Transferred r t₀ t ∧ ∀ a < frameSize, (r t).refMem a = frameAt ins r t₀ a

/-- The FSM still waits for the start bit in the second cycle of the transfer from cycle `t₀` on. -/
def LateStart (r : ℕ → System) (t₀ : ℕ) : Prop := (r (t₀ + 1)).currState = .waitStart

instance (r : ℕ → System) (t₀ : ℕ) : Decidable (LateStart r t₀) :=
  inferInstanceAs (Decidable (_ = _))

/-- `init_done` goes high after the last cycle of a capture. -/
theorem captured_of_initDoneAt (h : s₀.Sound) (h0 : s₀.initDone = false) {t : ℕ}
    (ht : InitDoneAt (runFrom s₀ ins) t) :
    ∃ u, t = u + 1 ∧ (runFrom s₀ ins u).InPhase (.capture (frameSize + 1)) := by
  obtain ⟨hd, hfirst⟩ := ht
  cases t with
  | zero => exact absurd (h0.symm.trans hd) (by simp)
  | succ u =>
    have hu := hfirst u (Nat.lt_succ_self u)
    obtain ⟨hinv, p, hp⟩ := sound_runFrom h ins u
    obtain ⟨p', hp', hn⟩ := phase_step (ins u) hinv hp
    rw [← runFrom_succ] at hp'
    refine ⟨u, rfl, ?_⟩
    cases hn with
    | captured => exact hp
    | off => exact absurd hd (by simp [hp'.2])
    | accept b => exact absurd hd (by simp [hp'.2.1])
    | waitIdle => exact absurd hd (by simp [hp'.2.1])
    | waitBegin => exact absurd hd (by simp [hp'.2.1])
    | seize c hc => exact absurd hd (by simp [hp'.2.1])
    | waitPass c h1 h2 => exact absurd hd (by simp [hp'.2.1])
    | waitEnd => exact absurd hd (by simp [hp'.2.1])
    | capture c hc => exact absurd hd (by simp [hp'.2.1])
    | rest => exact absurd hu (by simp [hp.2.1])
    | begin => exact absurd hu (by simp [hp.2.1])
    | start => exact absurd hu (by simp [hp.2.1])
    | proc => exact absurd hu (by simp [hp.2.1])
    | procBeat c hc => exact absurd hu (by simp [hp.2.1])
    | processed => exact absurd hu (by simp [hp.2.1])

/-- **The captured reference**, in the cycle `init_done` goes high. -/
theorem captured_ref (hinv : s₀.downsampler.Inv) (h0 : s₀.InPhase .off) (hb0 : s₀.beat = none) {t : ℕ}
    (ht : InitDoneAt (runFrom s₀ ins) t) :
    ∃ t₁, t = t₁ + frameSize + 2 ∧ (runFrom s₀ ins t₁).beat = some 0 ∧
      (∀ a, 0 < a → a < frameSize - 1 → (runFrom s₀ ins t).refMem a = frameAt ins (runFrom s₀ ins) t₁ a) ∧
      (runFrom s₀ ins t).refMem (frameSize - 1) = s₀.refMem (frameSize - 1) ∧
      (runFrom s₀ ins t).refMem 0 =
        if LateStart (runFrom s₀ ins) t₁ then s₀.refMem 0 else frameAt ins (runFrom s₀ ins) t₁ 0 := by
  have h : s₀.Sound := ⟨hinv, _, h0⟩
  have hfs := frameSize_eq
  obtain ⟨u, rfl, hp⟩ := captured_of_initDoneAt h h0.2 ht
  obtain ⟨t₁, e, hu, hcap⟩ := captureInv_run hinv h0 hb0 u _ hp
  have hle := hcap.le
  have hmem : (runFrom s₀ ins (u + 1)).refMem = (runFrom s₀ ins u).refMem :=
    refMem_of_not_wren (s := runFrom s₀ ins u) (by rw [controlOut_captured (sound_runFrom h _ u).inv hp]; rfl)
  rw [hmem]
  refine ⟨t₁, by omega, hcap.begins, fun a h1 h2 => ?_, ?_, ?_⟩
  · exact hcap.stored a (by omega) (by omega)
  · exact hcap.kept _ (by omega) (by omega)
  · split_ifs with hl
    · have he := hcap.late.mpr hl
      exact hcap.kept 0 (fun _ => he) (by omega)
    · have he : e ≠ 3 := fun he => hl (hcap.late.mp he)
      exact hcap.stored 0 (by omega) (by omega)

theorem initDoneAt_blackFrames : InitDoneAt (runFrom init blackFrames) (beginCycle 0 + frameSize + 2) :=
  ⟨(rest_backToBack _ _).2.1, fun _ hu => initDone_low_backToBack _ _ hu⟩

/-- **When the captured reference is one whole frame.**  From reset, in the cycle `init_done` goes high: the
reference RAM holds the black/white pixels of one transferred frame iff some transferred frame has, in the last pixel, what
the RAM held before, in pixel `0` the captured frame's pixel (after a late start what the RAM held before), and
the captured frame's pixels elsewhere. -/
theorem reference_whole_iff (s : System) (i : In) (ins : ℕ → In) (r : ℕ → System)
    (hr : r = runFrom (s.clock false i) ins) (t : ℕ) (ht : InitDoneAt r t) :
    ReferenceWhole ins r t ↔
    ∃ t₀, Transferred r t₀ t ∧
      frameAt ins r t₀ (frameSize - 1) = (r 0).refMem (frameSize - 1) ∧
      frameAt ins r t₀ 0 = (if LateStart r (t - (frameSize + 2)) then (r 0).refMem 0
        else frameAt ins r (t - (frameSize + 2)) 0) ∧
      ∀ a, 0 < a → a < frameSize - 1 → frameAt ins r t₀ a = frameAt ins r (t - (frameSize + 2)) a := by
  subst hr
  have hfs := frameSize_eq
  obtain ⟨t₁, rfl, -, hmid, hlast, hzero⟩ :=
    captured_ref Downsampler.inv_init (inPhase_reset s i) rfl ht
  rw [show t₁ + frameSize + 2 - (frameSize + 2) = t₁ by omega]
  refine exists_congr fun t₀ => and_congr_right fun _ => ⟨fun hw => ?_, fun ⟨h1, h2, h3⟩ a ha => ?_⟩
  · refine ⟨?_, ?_, fun a h1 h2 => ?_⟩
    · exact (hw _ (by omega)).symm.trans hlast
    · exact (hw 0 (by omega)).symm.trans hzero
    · rw [← hw a (by omega), hmid a h1 h2]
  · rcases show a = 0 ∨ a = frameSize - 1 ∨ (0 < a ∧ a < frameSize - 1) by omega with rfl | rfl | ⟨h4, h5⟩
    · exact hzero.trans h2.symm
    · exact hlast.trans h1.symm
    · rw [hmid a h4 h5, h3 a h4 h5]

/-- All-black frames back to back with the start bit set in time: the last cell decides. -/
theorem reference_whole_iff_black :
    ¬ ReferenceWhole blackFrames (runFrom init blackFrames)
      (beginCycle 0 + frameSize + 2) := by
  rw [reference_whole_iff init (blackFrames 0) blackFrames _
    (by rw [clock_reset_init]) (beginCycle 0 + frameSize + 2) initDoneAt_blackFrames]
  rintro ⟨t₀, ⟨hb, -⟩, hlast, -⟩
  rw [begins_iff sound_init rfl] at hb
  rw [frameAt_eq sound_init hb (by rw [frameSize_eq]; omega)] at hlast
  have hbit : suspPixelIn 0x70 0 = false := hlast
  exact absurd hbit (by decide)

/-- In this run all transferred frames are black and the start bit comes in time, but the last cell of the reference
is white. -/
theorem reference_not_whole :
    InitDoneAt (runFrom init blackFrames) (beginCycle 0 + frameSize + 2) ∧
    ¬ ReferenceWhole blackFrames (runFrom init blackFrames)
      (beginCycle 0 + frameSize + 2) := by
  refine ⟨initDoneAt_blackFrames, ?_⟩
  rintro ⟨t₀, ⟨hb, -⟩, hw⟩
  have hfs := frameSize_eq
  rw [begins_iff sound_init rfl] at hb
  obtain ⟨t₁, -, -, -, hlast, -⟩ :=
    captured_ref Downsampler.inv_init ⟨Or.inl rfl, rfl⟩ rfl initDoneAt_blackFrames
  have h1 := hw (frameSize - 1) (by omega)
  rw [hlast, frameAt_eq sound_init hb (by omega)] at h1
  have hbit : false = suspPixelIn 0x70 0 := h1
  exact absurd hbit (by decide)

end System

end SuspiciousPackage
