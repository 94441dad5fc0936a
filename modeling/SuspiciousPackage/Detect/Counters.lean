import SuspiciousPackage.Sync.Counter
import SuspiciousPackage.Detect.Alignment

/-!
# Detect.Counters — `diff_cnt` and `match_cnt` cannot wrap

Both counters are a `PixelCounter`: cleared by `frame_start` and without a reference, counting a pixel signal in the
cycles with `diff_wren`.  The downsampler lets the FSM stay in `PROC_FRAME` for one transfer only, so at most
`frameSize - 1` increments come after a `frame_start` (`since_le`), far below `2 ^ 17`.
-/

namespace SuspiciousPackage

open Sync

namespace System

/-- A counter of the datapath that counts the signal `pixel`. -/
structure PixelCounter (cnt : System → BitVec 17) (pixel : In → System → Bool) : Prop where
  clock : ∀ i s, cnt (s.clock true i) =
    if (s.controlOut i).resetnDatapath = false ∨ s.initDone = false then 0
    else if s.frameStart i then 0 else Datapath.bump (cnt s) ((s.controlOut i).diffWren && pixel i s)
  gated : ∀ i s, s.initDone = false → pixel i s = false

def diffCnt (s : System) : BitVec 17 := s.datapath.diffCnt

def matchCnt (s : System) : BitVec 17 := s.datapath.matchCnt

theorem pixelCounter_diff : PixelCounter diffCnt diffPixel where
  clock i s := by
    have hpath : (s.detector.path (s.detectorIn i)).diffCnt = s.diffCnt := Datapath.settle_diffCnt _ _
    rw [← hpath]
    rfl
  gated _ _ hd := diffPixel_of_not_initDone hd

theorem pixelCounter_match : PixelCounter matchCnt matchPixel where
  clock i s := by
    have hpath : (s.detector.path (s.detectorIn i)).matchCnt = s.matchCnt := Datapath.settle_matchCnt _ _
    rw [← hpath]
    rfl
  gated i s hd := by
    have hin : (s.datapathIn i).initDone = false := hd
    unfold matchPixel Datapath.matchPixel
    rw [hin, Bool.and_false]

/-- The counter of `pixel` is incremented in cycle `t`. -/
def Increments (pixel : In → System → Bool) (ins : ℕ → In) (r : ℕ → System) (t : ℕ) : Prop :=
  ((r t).controlOut (ins t)).diffWren = true ∧ pixel (ins t) (r t) = true

instance (pixel : In → System → Bool) (ins : ℕ → In) (r : ℕ → System) : DecidablePred (Increments pixel ins r) :=
  fun _ => inferInstanceAs (Decidable (_ ∧ _))

section Run

variable {s₀ : System} {ins : ℕ → In} {cnt : System → BitVec 17} {pixel : In → System → Bool}

/-- Most increments since the last `frame_start` that a phase can have seen. -/
def sinceBound : Phase → ℕ
  | .off | .wait _ | .capture _ => 0
  | .rest | .lead | .start => frameSize - 1
  | .proc c => c - 2

theorem not_increments_of_not_initDone (hc : PixelCounter cnt pixel) {t : ℕ}
    (hd : (runFrom s₀ ins t).initDone = false) : ¬ Increments pixel ins (runFrom s₀ ins) t := by
  rintro ⟨-, hpix⟩
  rw [hc.gated _ _ hd] at hpix
  cases hpix

theorem not_increments_of_not_wren {r : ℕ → System} {t : ℕ} (hw : ((r t).controlOut (ins t)).diffWren = false) :
    ¬ Increments pixel ins r t := by
  rintro ⟨hw', -⟩
  rw [hw] at hw'
  cases hw'

/-- **The increments since the last `frame_start`**, in each phase. -/
theorem since_le_bound (h₀ : AfterReset s₀) (hc : PixelCounter cnt pixel) :
    ∀ t p, (runFrom s₀ ins t).InPhase p →
      since (Fires ins (runFrom s₀ ins)) (Increments pixel ins (runFrom s₀ ins)) t ≤ sinceBound p := by
  refine phase_induction h₀.inv h₀.phase le_rfl fun t p p' hp hp' hn hJ => ?_
  have hi := (sound_runFrom h₀.sound ins t).inv
  have hfs := frameSize_eq
  -- a cycle without an increment
  have hkeep : ¬ Increments pixel ins (runFrom s₀ ins) t → sinceBound p ≤ sinceBound p' →
      since (Fires ins (runFrom s₀ ins)) (Increments pixel ins (runFrom s₀ ins)) (t + 1) ≤ sinceBound p' := by
    intro hno hle
    exact (since_succ_le_of_not_inc hno).trans (hJ.trans hle)
  cases hn with
  | off => exact hkeep (not_increments_of_not_initDone hc hp.2) le_rfl
  | accept => exact hkeep (not_increments_of_not_initDone hc hp.2) le_rfl
  | waitIdle | waitBegin | seize | waitPass | waitEnd | capture =>
    exact hkeep (not_increments_of_not_initDone hc hp.2.1) le_rfl
  | captured => exact hkeep (not_increments_of_not_initDone hc hp.2.1) (Nat.zero_le _)
  | rest | begin =>
    refine hkeep (not_increments_of_not_wren ?_) le_rfl
    rw [controlOut_rest hi hp]
    rfl
  | start =>
    refine hkeep (not_increments_of_not_wren ?_) le_rfl
    rw [controlOut_lead hi hp]
    rfl
  | proc =>
    rw [since_succ_of_clear (fires_iff.mpr hp.1)]
    exact Nat.zero_le _
  | procBeat c hc' =>
    have h2 := hp.2.2.2
    have hJ' : _ ≤ c - 2 := hJ
    show _ ≤ c + 1 - 2
    refine since_succ_le.trans ?_
    omega
  | processed =>
    refine hkeep (not_increments_of_not_wren ?_) ?_
    · rw [controlOut_processed hi hp]
      rfl
    · show frameSize + 1 - 2 ≤ frameSize - 1
      omega

/-- At most one increment for each address that `PROC_FRAME` passes over. -/
theorem since_le (h₀ : AfterReset s₀) (hc : PixelCounter cnt pixel) (t : ℕ) :
    since (Fires ins (runFrom s₀ ins)) (Increments pixel ins (runFrom s₀ ins)) t ≤ frameSize - 1 := by
  obtain ⟨hinv, p, hp⟩ := sound_runFrom h₀.sound ins t
  refine (since_le_bound h₀ hc t p hp).trans ?_
  cases p with
  | off | wait | capture => exact Nat.zero_le _
  | rest | lead | start => exact le_rfl
  | proc c =>
    have hle := Downsampler.beat_le hinv hp.2.2.1
    show c - 2 ≤ frameSize - 1
    omega

/-- Without a reference the counter is held at `0`. -/
theorem PixelCounter.cleared (hc : PixelCounter cnt pixel) (h0 : cnt s₀ = 0) {t : ℕ}
    (hd : (runFrom s₀ ins t).initDone = false) : cnt (runFrom s₀ ins t) = 0 := by
  cases t with
  | zero => exact h0
  | succ t =>
    rw [runFrom_succ, hc.clock, if_pos (Or.inr (initDone_low (Nat.le_succ t) hd))]

/-- An edge without `frame_start`. -/
theorem PixelCounter.clock_count (hc : PixelCounter cnt pixel) {s : System} {i : In} (h : s.Sound)
    (hd : s.initDone = true) (hf : s.frameStart i = false) :
    cnt (s.clock true i) = Datapath.bump (cnt s) ((s.controlOut i).diffWren && pixel i s) := by
  have hr := resetnDatapath_of_initDone (i := i) h hd
  rw [hc.clock, if_neg (by simp [hr, hd]), if_neg (by simp [hf])]

/-- **The counter is exact.** -/
theorem PixelCounter.counts (h₀ : AfterReset s₀) (hc : PixelCounter cnt pixel) (h0 : cnt s₀ = 0) (t : ℕ) :
    (cnt (runFrom s₀ ins t)).toNat =
      since (Fires ins (runFrom s₀ ins)) (Increments pixel ins (runFrom s₀ ins)) t := by
  have hlt : since (Fires ins (runFrom s₀ ins)) (Increments pixel ins (runFrom s₀ ins)) t < 2 ^ 17 := by
    have hle : since (Fires ins (runFrom s₀ ins)) (Increments pixel ins (runFrom s₀ ins)) t ≤ frameSize - 1 :=
      since_le h₀ hc t
    rw [frameSize_eq] at hle
    omega
  refine counter_eq (fun t => cnt (runFrom s₀ ins t)) h0 ?_ ?_ hlt
  · intro t hf
    have hf' : (runFrom s₀ ins t).frameStart (ins t) = true := hf
    show cnt (runFrom s₀ ins (t + 1)) = 0
    rw [runFrom_succ, hc.clock, if_pos hf', ite_self]
  · intro t hf
    have hf' : (runFrom s₀ ins t).frameStart (ins t) = false := Bool.eq_false_of_not_eq_true hf
    show cnt (runFrom s₀ ins (t + 1)) = cnt (runFrom s₀ ins t) + _
    cases hd : (runFrom s₀ ins t).initDone
    · rw [if_neg (not_increments_of_not_initDone hc hd), runFrom_succ, hc.clock, if_pos (Or.inr hd), hc.cleared h0 hd]
      rfl
    · rw [runFrom_succ, hc.clock_count (sound_runFrom h₀.sound ins t) hd hf']
      by_cases hi : Increments pixel ins (runFrom s₀ ins) t
      · rw [if_pos hi, hi.1, hi.2, Bool.and_true, Datapath.bump_true]
      · have hlow : (((runFrom s₀ ins t).controlOut (ins t)).diffWren && pixel (ins t) (runFrom s₀ ins t)) = false := by
          rw [← Bool.not_eq_true, Bool.and_eq_true]
          exact hi
        rw [if_neg hi, hlow, Datapath.bump_false]
        exact (BitVec.add_zero _).symm

/-! ## Between two frames -/

/-- Cycle `x` is the last one of a frame in `PROC_FRAME`. -/
def LastProc (r : ℕ → System) (x : ℕ) : Prop :=
  (r x).currState = .procFrame ∧ (r (x + 1)).currState ≠ .procFrame

theorem inPhase_lastProc (h : s₀.Sound) {x : ℕ} (hx : LastProc (runFrom s₀ ins) x) :
    (runFrom s₀ ins x).InPhase (.proc (frameSize + 1)) ∧ (runFrom s₀ ins (x + 1)).InPhase .rest := by
  obtain ⟨hinv, p, hp⟩ := sound_runFrom h ins x
  obtain ⟨p', hp', hn⟩ := phase_step (ins x) hinv hp
  obtain ⟨hs, hs'⟩ := hx
  cases p with
  | off => rcases hp.1 with ho | ho <;> exact absurd (ho.symm.trans hs) (by simp)
  | wait | capture | rest | lead | start => exact absurd (hp.1.symm.trans hs) (by simp)
  | proc c =>
    cases hn with
    | procBeat => exact absurd hp'.1 hs'
    | processed => exact ⟨hp, hp'⟩

/-- From the end of a frame to the next `frame_start` the FSM waits. -/
theorem waits_after_proc (h : s₀.Sound) {x z : ℕ} (hx : LastProc (runFrom s₀ ins) x) (hxz : x < z)
    (hno : ∀ u, x < u → u < z → ¬ Fires ins (runFrom s₀ ins) u) :
    (runFrom s₀ ins z).InPhase .rest ∨ (runFrom s₀ ins z).InPhase .lead ∨ (runFrom s₀ ins z).InPhase .start := by
  induction z, hxz using Nat.le_induction with
  | base => exact Or.inl (inPhase_lastProc h hx).2
  | succ z hz ih =>
    have hfire := hno z hz (Nat.lt_succ_self z)
    rcases ih fun u h1 h2 => hno u h1 (by omega) with hp | hp | hp
    · obtain ⟨p', hp', hn⟩ := phase_step (ins z) (sound_runFrom h ins z).inv hp
      cases hn with
      | rest => exact Or.inl hp'
      | begin => exact Or.inr (Or.inl hp')
    · obtain ⟨p', hp', hn⟩ := phase_step (ins z) (sound_runFrom h ins z).inv hp
      cases hn
      exact Or.inr (Or.inr hp')
    · exact absurd (fires_iff.mpr hp.1) hfire

/-- Nothing is counted there. -/
theorem not_increments_after_proc (h₀ : AfterReset s₀) {x u : ℕ} (hx : LastProc (runFrom s₀ ins) x) (hxu : x ≤ u)
    (hno : ∀ v, x < v → v ≤ u → ¬ Fires ins (runFrom s₀ ins) v) : ¬ Increments pixel ins (runFrom s₀ ins) u := by
  have hi := (sound_runFrom h₀.sound ins u).inv
  refine not_increments_of_not_wren ?_
  rcases hxu.eq_or_lt with rfl | hxu
  · rw [controlOut_processed hi (inPhase_lastProc h₀.sound hx).1]
    rfl
  · rcases waits_after_proc h₀.sound hx hxu fun v h1 h2 => hno v h1 h2.le with hp | hp | hp
    · rw [controlOut_rest hi hp]
      rfl
    · rw [controlOut_lead hi hp]
      rfl
    · exact absurd (fires_iff.mpr hp.1) (hno u hxu le_rfl)

/-- The counter rests. -/
theorem PixelCounter.rests (h₀ : AfterReset s₀) (hc : PixelCounter cnt pixel) (h0 : cnt s₀ = 0) {x z : ℕ}
    (hx : LastProc (runFrom s₀ ins) x) (hxz : x ≤ z) (hno : ∀ u, x < u → u < z → ¬ Fires ins (runFrom s₀ ins) u) :
    cnt (runFrom s₀ ins z) = cnt (runFrom s₀ ins x) := by
  apply BitVec.eq_of_toNat_eq
  rw [hc.counts h₀ h0, hc.counts h₀ h0]
  apply since_eq_of_quiet hxz
  intro u h1 h2
  refine ⟨?_, not_increments_after_proc h₀ hx h1 fun v h3 h4 => hno v h3 (by omega)⟩
  rcases h1.eq_or_lt with rfl | h1
  · intro hf
    exact absurd ((inPhase_lastProc h₀.sound hx).1.1.symm.trans (fires_iff.mp hf)) (by simp)
  · exact hno u h1 h2

end Run

/-- The counter is the number of increments since the last `frame_start`, and no more than that can come; from the last
cycle in `PROC_FRAME` on it rests until the next `frame_start`. -/
structure NeverWraps (cnt : System → BitVec 17) (pixel : In → System → Bool) (ins : ℕ → In) (r : ℕ → System) : Prop where
  counts : ∀ t, (cnt (r t)).toNat = since (Fires ins r) (Increments pixel ins r) t
  le : ∀ t, since (Fires ins r) (Increments pixel ins r) t ≤ frameSize - 1
  rests : ∀ x z, LastProc r x → x ≤ z → (∀ u, x < u → u < z → ¬ Fires ins r u) → cnt (r z) = cnt (r x)

theorem PixelCounter.neverWraps {s₀ : System} (h₀ : AfterReset s₀) {cnt : System → BitVec 17} {pixel : In → System → Bool}
    (hc : PixelCounter cnt pixel) (h0 : cnt s₀ = 0) (ins : ℕ → In) : NeverWraps cnt pixel ins (runFrom s₀ ins) where
  counts := hc.counts h₀ h0
  le := since_le h₀ hc
  rests _ _ hx hxz hno := hc.rests h₀ h0 hx hxz hno

/-- **The pixel counters cannot wrap**, from any reset and on any inputs. -/
theorem counters_never_wrap (s : System) (i : In) (ins : ℕ → In) :
    NeverWraps diffCnt diffPixel ins (runFrom (s.clock false i) ins) ∧
    NeverWraps matchCnt matchPixel ins (runFrom (s.clock false i) ins) := by
  constructor
  · exact pixelCounter_diff.neverWraps (afterReset s i) rfl ins
  · exact pixelCounter_match.neverWraps (afterReset s i) rfl ins

end System

end SuspiciousPackage
