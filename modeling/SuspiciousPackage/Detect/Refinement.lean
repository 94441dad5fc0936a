import SuspiciousPackage.Detect.Track

/-!
# Detect.Refinement — a run refines the frame model

For runs from power-up in which the start bit is raised with no transfer in progress (`StartsIdle`), with fixed
thresholds, and in which the transfers begun after the start bit deliver the frames `F 0, F 1, …` (`Delivers`):
`followed` connects every cycle of the run to `Tally.afterFrames thr F`.  Time enters only through the number of
transfers begun and of `frame_start`s given so far.
-/

namespace SuspiciousPackage

open Sync

namespace System

/-- The start bit has been raised before cycle `t`. -/
def Started (ins : ℕ → In) (t : ℕ) : Prop := ∃ u < t, (ins u).startCapture = true

instance (ins : ℕ → In) (t : ℕ) : Decidable (Started ins t) := inferInstanceAs (Decidable (∃ u < t, _))

/-- When the start bit is first raised, the FSM is in `WAIT_START` and no transfer is in progress. -/
def StartsIdle (ins : ℕ → In) (r : ℕ → System) : Prop :=
  ∀ t, (ins t).startCapture = true → ¬ Started ins t →
    (r t).currState = .waitStart ∧ (r t).downsampler.transfer = false

instance (r : ℕ → System) (t : ℕ) : Decidable (Begins r t) :=
  decidable_of_iff ((r t).downsampler.transfer = true ∧ (t = 0 ∨ (r (t - 1)).downsampler.transfer = false)) <| by
    refine and_congr_right fun _ => ⟨?_, fun h => ?_⟩
    · rintro (rfl | h) u hu
      · omega
      · rwa [show t - 1 = u by omega] at h
    · rcases t with _ | u
      · exact Or.inl rfl
      · exact Or.inr (h u rfl)

/-- A transfer begins in cycle `t`, after the start bit. -/
def Taken (ins : ℕ → In) (r : ℕ → System) (t : ℕ) : Prop := Begins r t ∧ Started ins t

instance (ins : ℕ → In) (r : ℕ → System) : DecidablePred (Taken ins r) :=
  fun _ => inferInstanceAs (Decidable (_ ∧ _))

/-- The transfers after the start bit have the black/white pixels `F 0`, `F 1`, …. -/
def Delivers (ins : ℕ → In) (r : ℕ → System) (F : ℕ → ℕ → Bool) : Prop :=
  ∀ k t, Kth (Taken ins r) k t → ∀ a < frameSize, frameAt ins r t a = F k a

/-- `frame_start` in cycle `t`. -/
def Fires (ins : ℕ → In) (r : ℕ → System) (t : ℕ) : Prop := (r t).frameStart (ins t) = true

instance (ins : ℕ → In) (r : ℕ → System) : DecidablePred (Fires ins r) :=
  fun _ => inferInstanceAs (Decidable (_ = _))

/-! ## The end of the capture -/

section Captured

variable {s : System} {i : In}

/-- The edge at the end of the capture: the pipeline and the counters are clear. -/
theorem datapath_clock_captured (h : s.downsampler.Inv) (hp : s.InPhase (.capture (frameSize + 1))) :
    (s.clock true i).datapath =
      { pixelInD1 := false, currPixel := false, diffPixelD1 := false, diffPixelD2 := s.datapath.diffPixelD1
        diffCnt := 0, matchCnt := 0, suspicion := 0, frameCnt := 0
        refFrameBuffer := ⟨s.refMem, s.refMem 0, s.datapath.refFrameBuffer.latch⟩
        diffFrameBuffer := ⟨s.diffMem, s.diffMem 0, s.datapath.diffFrameBuffer.latch⟩ } := by
  have ho := controlOut_captured (i := i) h hp
  have hin : s.datapathIn i =
      { initDone := false, frameStart := false, resetn := true, pixelIn := s.bwPixel i, refAddr := 0, refWren := false,
        refBramEnable := true, diffAddr := 0, diffWren := false, diffBramEnable := true,
        objectThres := i.detectionThres, staticThres := i.staticThres, suspicionThres := i.suspicionThres } := by
    rw [datapathIn_eq, show s.initDone = false from hp.2.1, ho]
    rfl
  rw [datapath_clock_eq (by rw [ho]; rfl), hin]
  simp [Datapath.clock, Datapath.diffPixel, Ram.clock, refMem, diffMem, datapath]

/-- The capture of a whole transfer leaves what the frame model says. -/
theorem Capturing.rested {ins : ℕ → In} {r : ℕ → System} {t e : ℕ} {Q : ℕ → Bool} (h : s.downsampler.Inv)
    (hp : s.InPhase (.capture (frameSize + 1))) (he : e ≠ 3) (hQ : ∀ a < frameSize, frameAt ins r t a = Q a)
    (hc : Capturing ins r (fun _ => false) (fun _ => false) t e (frameSize + 1) s) :
    Rested (Tally.capture Q) (s.clock true i) := by
  have hfs := frameSize_eq
  have hle := hc.le
  have hclk := datapath_clock_captured (i := i) h hp
  have href : s.refMem = storedFrame Q := by
    funext a
    unfold storedFrame
    by_cases ha : a < frameSize - 1
    · rw [if_pos ha, hc.stored a (by omega) (by omega), hQ a (by omega)]
    · rw [if_neg ha]
      exact hc.kept a (by omega) (by omega)
  have hdiff : s.diffMem = fun _ => false := funext fun a => (hc.diff a).elim id id
  refine ⟨?_, ?_, ?_, ?_, ?_, ?_, ?_, ?_, ?_⟩
  · exact (congrArg (fun d => d.refFrameBuffer.mem) hclk).trans href
  · exact (congrArg (fun d => d.diffFrameBuffer.mem) hclk).trans hdiff
  · rw [hclk]; rfl
  · rw [hclk]; rfl
  · rw [hclk]; rfl
  · rw [hclk]
  · rw [hclk]
  · rw [hclk]; exact congrFun href 0
  · rw [hclk]; exact congrFun hdiff 0

end Captured

/-! ## Counting transfers and decisions -/

section Events

variable {ins : ℕ → In} {t : ℕ}

theorem Started.succ (h : Started ins t) : Started ins (t + 1) := by
  obtain ⟨u, hu, hs⟩ := h
  exact ⟨u, by omega, hs⟩

theorem started_of_startCapture (h : (ins t).startCapture = true) : Started ins (t + 1) := ⟨t, by omega, h⟩

theorem taken_iff : Taken ins (runFrom init ins) t ↔ (runFrom init ins t).beat = some 0 ∧ Started ins t := by
  unfold Taken
  rw [begins_iff sound_init rfl]

theorem fires_iff {r : ℕ → System} : Fires ins r t ↔ (r t).currState = .startFrame := Control.comb_frameStart

theorem count_taken_of_beat (h : (runFrom init ins t).beat ≠ some 0) :
    Nat.count (Taken ins (runFrom init ins)) (t + 1) = Nat.count (Taken ins (runFrom init ins)) t :=
  Nat.count_succ_eq_count_iff.mpr fun ht => h (taken_iff.mp ht).1

theorem count_fires_of_state {r : ℕ → System} (h : (r t).currState ≠ .startFrame) :
    Nat.count (Fires ins r) (t + 1) = Nat.count (Fires ins r) t :=
  Nat.count_succ_eq_count_iff.mpr fun hf => h (fires_iff.mp hf)

/-- A cycle in which no transfer begins and no decision falls. -/
theorem counts_quiet (hb : (runFrom init ins t).beat ≠ some 0) (hs : (runFrom init ins t).currState ≠ .startFrame) :
    Nat.count (Taken ins (runFrom init ins)) (t + 1) = Nat.count (Taken ins (runFrom init ins)) t ∧
      Nat.count (Fires ins (runFrom init ins)) (t + 1) = Nat.count (Fires ins (runFrom init ins)) t :=
  ⟨count_taken_of_beat hb, count_fires_of_state hs⟩

end Events

/-! ## The run -/

section Run

variable {ins : ℕ → In} {thr : Thresholds} {F : ℕ → ℕ → Bool}

/-- How cycle `t` of a run stands to the frame model, in each phase.  `count (Fires ins r) t` frames have been decided
upon before cycle `t`; the frame in transfer is the next one. -/
def Follows (ins : ℕ → In) (r : ℕ → System) (thr : Thresholds) (F : ℕ → ℕ → Bool) (t : ℕ) : Phase → Prop
  | .off => ¬ Started ins t ∧ Nat.count (Taken ins r) t = 0 ∧ Nat.count (Fires ins r) t = 0
  | .wait b => Started ins t ∧ (b = none ∨ b = some 0) ∧ Nat.count (Taken ins r) t = 0 ∧
      Nat.count (Fires ins r) t = 0
  | .capture c => ∃ t₀, t = t₀ + c ∧ Kth (Taken ins r) 0 t₀ ∧ (r (t₀ + 1)).currState = .captureRef ∧
      Started ins t ∧ Nat.count (Taken ins r) t = 1 ∧ Nat.count (Fires ins r) t = 0
  | .rest => Started ins t ∧ Nat.count (Taken ins r) t = Nat.count (Fires ins r) t + 1 ∧
      Rested (Tally.afterFrames thr F (Nat.count (Fires ins r) t)) (r t)
  | .lead => Started ins t ∧ Nat.count (Taken ins r) t = Nat.count (Fires ins r) t + 1 ∧
      Leading (Tally.afterFrames thr F (Nat.count (Fires ins r) t)) (r t)
  | .start => ∃ t₀, t = t₀ + 1 ∧ Kth (Taken ins r) (Nat.count (Fires ins r) t + 1) t₀ ∧
      Started ins t ∧ Nat.count (Taken ins r) t = Nat.count (Fires ins r) t + 2 ∧
      Starting (Tally.afterFrames thr F (Nat.count (Fires ins r) t)) (r t)
  | .proc c => ∃ t₀ k, t = t₀ + c ∧ Kth (Taken ins r) (k + 1) t₀ ∧ Nat.count (Fires ins r) t = k + 1 ∧
      Started ins t ∧ Nat.count (Taken ins r) t = k + 2 ∧
      InFrame thr (Tally.afterFrames thr F k) (F (k + 1)) c (r t)

theorem first_beat {c : ℕ} (h : some c = none ∨ some c = some 0) : c = 0 := by
  rcases h with h | h
  · cases h
  · exact Option.some.inj h

/-- Before the start bit is raised nothing can be accepted. -/
theorem follows_off_step (hidle : StartsIdle ins (runFrom init ins)) {t : ℕ} (hns : ¬ Started ins t)
    (hp : (runFrom init ins t).InPhase .off) :
    ((runFrom init ins (t + 1)).InPhase .off → ¬ Started ins (t + 1)) ∧
    ∀ b, (runFrom init ins (t + 1)).InPhase (.wait b) → Started ins (t + 1) ∧ (b = none ∨ b = some 0) := by
  refine ⟨fun hp' hs => ?_, fun b hp' => ?_⟩
  · have hi : (ins t).startCapture = true := by
      obtain ⟨u, hu, hi⟩ := hs
      rcases Nat.lt_succ_iff_lt_or_eq.mp hu with hlt | rfl
      · exact absurd ⟨u, hlt, hi⟩ hns
      · exact hi
    have hacc := accept_of_waitStart (hidle t hi hns).1 hi
    rcases hp'.1 with h | h <;> exact absurd (h.symm.trans hacc) (by simp)
  · obtain ⟨hw, hi⟩ := waitStart_of_accept hp hp'.1
    refine ⟨started_of_startCapture hi, ?_⟩
    have hb := beat_eq_none_iff.mpr (hidle t hi hns).2
    have hnext := beat_clock_none (ins t) (sound_runFrom sound_init ins t).inv hb
    rw [← runFrom_succ, hp'.2.2] at hnext
    exact hnext

/-! One move of each kind. -/

section Moves

variable {t : ℕ}

theorem follows_captured (hp : (runFrom init ins t).InPhase (.capture (frameSize + 1)))
    (hpos : CaptureInv ins (runFrom init ins) t (.capture (frameSize + 1))) (hF : Delivers ins (runFrom init ins) F)
    (hJ : Follows ins (runFrom init ins) thr F t (.capture (frameSize + 1))) :
    Follows ins (runFrom init ins) thr F (t + 1) .rest := by
  obtain ⟨t₀, ht, hk0, hst, hs, hk, hf⟩ := hJ
  obtain ⟨t₁, e, ht', hcap⟩ := hpos
  obtain rfl : t₁ = t₀ := by omega
  have he : e ≠ 3 := fun he => absurd (hst.symm.trans (hcap.late.mp he)) (by simp)
  have hb : (runFrom init ins t).beat ≠ some 0 := by rw [hp.2.2.1]; simp
  obtain ⟨hk', hf'⟩ := counts_quiet hb (by simp [hp.1])
  rw [hf] at hf'
  refine ⟨hs.succ, by rw [hk', hk, hf'], ?_⟩
  rw [hf']
  exact hcap.rested (sound_runFrom sound_init ins t).inv hp he (hF 0 _ hk0)

/-- From an idle cycle, whether a transfer begins next or not: `Leading` is `Rested` and more. -/
theorem follows_rest (hp : (runFrom init ins t).InPhase .rest) (hJ : Follows ins (runFrom init ins) thr F t .rest) :
    Follows ins (runFrom init ins) thr F (t + 1) .lead := by
  obtain ⟨hs, hk, hS⟩ := hJ
  have hb : (runFrom init ins t).beat ≠ some 0 := by simp [hp.2.2]
  obtain ⟨hk', hf'⟩ := counts_quiet hb (by simp [hp.1])
  refine ⟨hs.succ, by rw [hk', hk, hf'], ?_⟩
  rw [hf']
  exact leading_of_rested hp.2.1 (controlOut_rest (sound_runFrom sound_init ins t).inv hp) hS

theorem follows_lead (hp : (runFrom init ins t).InPhase .lead) (hJ : Follows ins (runFrom init ins) thr F t .lead) :
    Follows ins (runFrom init ins) thr F (t + 1) .start := by
  obtain ⟨hs, hk, hS⟩ := hJ
  have hf' : Nat.count (Fires ins (runFrom init ins)) (t + 1) = Nat.count (Fires ins (runFrom init ins)) t :=
    count_fires_of_state (by simp [hp.1])
  have htk : Taken ins (runFrom init ins) t := taken_iff.mpr ⟨hp.2.2, hs⟩
  refine ⟨t, rfl, ⟨htk, by rw [hf', hk]⟩, hs.succ, ?_, ?_⟩
  · rw [Nat.count_succ_eq_succ_count_iff.mpr htk, hk, hf']
  · rw [hf']
    exact hS.start (sound_runFrom sound_init ins t).inv hp

theorem follows_start (hthr : ∀ t, thresholds (ins t) = thr) (hp : (runFrom init ins t).InPhase .start)
    (hJ : Follows ins (runFrom init ins) thr F t .start) : Follows ins (runFrom init ins) thr F (t + 1) (.proc 2) := by
  obtain ⟨t₀, rfl, hk0, hs, hk, hS⟩ := hJ
  have hfire : Fires ins (runFrom init ins) (t₀ + 1) := fires_iff.mpr hp.1
  refine ⟨t₀, _, rfl, hk0, Nat.count_succ_eq_succ_count_iff.mpr hfire, hs.succ, ?_, ?_⟩
  · rw [count_taken_of_beat (by rw [hp.2.2]; simp), hk]
  · have hproc := hS.proc (i := ins (t₀ + 1)) (Q := F (Nat.count (Fires ins (runFrom init ins)) (t₀ + 1) + 1)) hp
    rwa [hthr] at hproc

theorem follows_procBeat {c : ℕ} (hc : c ≤ frameSize) (hp : (runFrom init ins t).InPhase (.proc c))
    (hF : Delivers ins (runFrom init ins) F) (hJ : Follows ins (runFrom init ins) thr F t (.proc c)) :
    Follows ins (runFrom init ins) thr F (t + 1) (.proc (c + 1)) := by
  obtain ⟨t₀, k, rfl, hk0, hf, hs, hk, hS⟩ := hJ
  have h2 := hp.2.2.2
  have hb : (runFrom init ins (t₀ + c)).beat ≠ some 0 := by
    rw [hp.2.2.1]
    simp only [ne_eq, Option.some.injEq]
    omega
  obtain ⟨hk', hf'⟩ := counts_quiet hb (by simp [hp.1])
  refine ⟨t₀, k, by omega, hk0, by rw [hf', hf], hs.succ, by rw [hk', hk], ?_⟩
  refine hS.step (sound_runFrom sound_init ins _).inv hp hc ?_
  rw [← hF _ _ hk0 (c - 2) (by omega)]
  exact bwPixel_eq_frameAt h2

theorem follows_processed (hp : (runFrom init ins t).InPhase (.proc (frameSize + 1)))
    (hJ : Follows ins (runFrom init ins) thr F t (.proc (frameSize + 1))) :
    Follows ins (runFrom init ins) thr F (t + 1) .rest := by
  obtain ⟨t₀, k, ht, hk0, hf, hs, hk, hS⟩ := hJ
  have hb : (runFrom init ins t).beat ≠ some 0 := by rw [hp.2.2.1]; simp
  obtain ⟨hk', hf'⟩ := counts_quiet hb (by simp [hp.1])
  rw [hf] at hf'
  refine ⟨hs.succ, by rw [hk', hk, hf'], ?_⟩
  rw [hf']
  exact hS.processed (sound_runFrom sound_init ins t).inv hp

end Moves

/-- **The run follows the frame model.** -/
theorem followed (hidle : StartsIdle ins (runFrom init ins)) (hthr : ∀ t, thresholds (ins t) = thr)
    (hF : Delivers ins (runFrom init ins) F) :
    ∀ t p, (runFrom init ins t).InPhase p → Follows ins (runFrom init ins) thr F t p := by
  have h0 : init.InPhase .off := ⟨Or.inl rfl, rfl⟩
  refine phase_induction Downsampler.inv_init h0 ⟨fun ⟨u, hu, _⟩ => by omega, rfl, rfl⟩ fun t p p' hp hp' hn hJ => ?_
  cases hn with
  | off =>
    obtain ⟨hns, hk, hf⟩ := hJ
    refine ⟨(follows_off_step hidle hns hp).1 hp', ?_, ?_⟩
    · rw [Nat.count_succ_eq_count_iff.mpr fun htk => hns htk.2, hk]
    · rw [count_fires_of_state (by rcases hp.1 with h | h <;> simp [h]), hf]
  | accept b =>
    obtain ⟨hns, hk, hf⟩ := hJ
    obtain ⟨hs, hb⟩ := (follows_off_step hidle hns hp).2 b hp'
    refine ⟨hs, hb, ?_, ?_⟩
    · rw [Nat.count_succ_eq_count_iff.mpr fun htk => hns htk.2, hk]
    · rw [count_fires_of_state (by rcases hp.1 with h | h <;> simp [h]), hf]
  | waitIdle =>
    obtain ⟨hs, -, hk, hf⟩ := hJ
    have hb : (runFrom init ins t).beat ≠ some 0 := by simp [hp.2.2]
    obtain ⟨hk', hf'⟩ := counts_quiet hb (by simp [hp.1])
    exact ⟨hs.succ, Or.inl rfl, by rw [hk', hk], by rw [hf', hf]⟩
  | waitBegin =>
    obtain ⟨hs, -, hk, hf⟩ := hJ
    have hb : (runFrom init ins t).beat ≠ some 0 := by simp [hp.2.2]
    obtain ⟨hk', hf'⟩ := counts_quiet hb (by simp [hp.1])
    exact ⟨hs.succ, Or.inr rfl, by rw [hk', hk], by rw [hf', hf]⟩
  | seize c hc =>
    obtain ⟨hs, hb, hk, hf⟩ := hJ
    obtain rfl := first_beat hb
    have htk : Taken ins (runFrom init ins) t := taken_iff.mpr ⟨hp.2.2, hs⟩
    refine ⟨t, rfl, ⟨htk, hk⟩, hp'.1, hs.succ, ?_, ?_⟩
    · rw [Nat.count_succ_eq_succ_count_iff.mpr htk, hk]
    · rw [count_fires_of_state (by simp [hp.1]), hf]
  | waitPass c h1 h2 =>
    obtain ⟨-, hb, -⟩ := hJ
    obtain rfl := first_beat hb
    omega
  | waitEnd =>
    obtain ⟨-, hb, -⟩ := hJ
    exact absurd (first_beat hb) (by omega)
  | capture c hc =>
    obtain ⟨t₀, rfl, hk0, hst, hs, hk, hf⟩ := hJ
    have h1 := hp.2.2.2
    have hb : (runFrom init ins (t₀ + c)).beat ≠ some 0 := by
      rw [hp.2.2.1]
      simp only [ne_eq, Option.some.injEq]
      omega
    obtain ⟨hk', hf'⟩ := counts_quiet hb (by simp [hp.1])
    exact ⟨t₀, by omega, hk0, hst, hs.succ, by rw [hk', hk], by rw [hf', hf]⟩
  | captured => exact follows_captured hp (captureInv_run Downsampler.inv_init h0 rfl t _ hp) hF hJ
  | rest =>
    obtain ⟨hs, hk, hS⟩ := follows_rest hp hJ
    exact ⟨hs, hk, hS.toRested⟩
  | begin => exact follows_rest hp hJ
  | start => exact follows_lead hp hJ
  | proc => exact follows_start hthr hp hJ
  | procBeat c hc => exact follows_procBeat hc hp hF hJ
  | processed => exact follows_processed hp hJ

/-- **The `k`-th decision**: at the `k`-th `frame_start` the detector holds what the frame model has after `k` frames. -/
theorem starting_of_kth (hidle : StartsIdle ins (runFrom init ins)) (hthr : ∀ t, thresholds (ins t) = thr)
    (hF : Delivers ins (runFrom init ins) F) {k t : ℕ} (hk : Kth (Fires ins (runFrom init ins)) k t) :
    Starting (Tally.afterFrames thr F k) (runFrom init ins t) := by
  have hp := inPhase_start (sound_runFrom sound_init ins t) (fires_iff.mp hk.1)
  obtain ⟨t₀, -, -, -, -, hS⟩ := followed hidle hthr hF t _ hp
  rwa [hk.2] at hS

end Run

/-- Back to back, transfer `k` is the `k`-th one taken. -/
theorem kth_taken_backToBack (tdata : ℕ → BitVec 16) (thr : Thresholds) (k : ℕ) :
    Kth (Taken (backToBack tdata thr) (runFrom init (backToBack tdata thr))) k (beginCycle k) := by
  have htaken : ∀ k, Taken (backToBack tdata thr) (runFrom init (backToBack tdata thr)) (beginCycle k) := by
    intro k
    exact taken_iff.mpr ⟨beat_beginCycle tdata thr k, 1, by unfold beginCycle; omega, rfl⟩
  have hbegin : ∀ z, Taken (backToBack tdata thr) (runFrom init (backToBack tdata thr)) z → ∃ j, z = beginCycle j :=
    fun z hz => beginCycle_of_beat tdata thr (taken_iff.mp hz).1
  induction k with
  | zero =>
    refine ⟨htaken 0, Nat.count_iff_forall_not.mpr fun z hz ht => ?_⟩
    obtain ⟨j, rfl⟩ := hbegin z ht
    unfold beginCycle at hz
    omega
  | succ k ih =>
    refine ih.next (htaken (k + 1)) (by rw [beginCycle_succ]; omega) ?_
    intro z h1 h2 hz
    obtain ⟨j, rfl⟩ := hbegin z hz
    rcases Nat.lt_or_ge k j with hkj | hjk
    · have := Nat.mul_le_mul_right (frameSize + 3) (show k + 1 ≤ j from hkj)
      unfold beginCycle at h2
      omega
    · have := Nat.mul_le_mul_right (frameSize + 3) hjk
      unfold beginCycle at h1
      omega

end System

end SuspiciousPackage
