import SuspiciousPackage.Detect.Refinement

/-!
# Detect.Consecutive — one transfer after the other

From any reset, with any contents of the RAMs, any timing of the start bit and thresholds that may change in every
cycle: once there is a reference the pipeline follows the frame model of its own state (`tracked_run`).  So the cycles
of a transfer are as `InFrame` says (`inFrame_of_lead`), and the next transfer begins with the frame processed
(`leading_next`).
-/

namespace SuspiciousPackage

open Sync

namespace System

/-- The detector between two frames, read off the state. -/
def tally (s : System) : Tally where
  ref := s.refMem
  diff := s.diffMem
  diffCnt := s.datapath.diffCnt.toNat
  matchCnt := s.datapath.matchCnt.toNat
  suspicion := s.datapath.suspicion

theorem Rested.tally_eq {S : Tally} {s : System} (h : Rested S s) : s.tally = S := by
  obtain ⟨ref, diff, diffCnt, matchCnt, suspicion⟩ := S
  unfold tally
  rw [h.ref, h.diff, h.diffCnt, h.matchCnt, h.suspicion]

theorem Rested.own {S : Tally} {s : System} (h : Rested S s) : Rested s.tally s := by
  rw [h.tally_eq]
  exact h

theorem Leading.own {S : Tally} {s : System} (h : Leading S s) : Leading s.tally s := by
  rw [h.toRested.tally_eq]
  exact h

theorem Starting.own {S : Tally} {s : System} (h : Starting S s) : Starting s.tally s := by
  rw [h.toRested.tally_eq]
  exact h

/-- What the pipeline holds in cycle `t` of a run, in each phase with a reference. -/
def Tracked (ins : ℕ → In) (r : ℕ → System) (t : ℕ) : Phase → Prop
  | .rest => Rested (r t).tally (r t)
  | .lead => Leading (r t).tally (r t)
  | .start => Starting (r t).tally (r t)
  | .proc c => ∃ t₀ thr S, t = t₀ + c ∧ InFrame thr S (frameAt ins r t₀) c (r t)
  | _ => True

/-- A state as a reset leaves it: an idle downsampler and no start bit yet; the RAMs hold anything. -/
structure AfterReset (s : System) : Prop where
  inv : s.downsampler.Inv
  phase : s.InPhase .off
  idle : s.beat = none

theorem AfterReset.sound {s : System} (h : AfterReset s) : s.Sound := ⟨h.inv, _, h.phase⟩

theorem afterReset (s : System) (i : In) : AfterReset (s.clock false i) :=
  ⟨Downsampler.inv_init, inPhase_reset s i, rfl⟩

theorem afterReset_init : AfterReset init := ⟨Downsampler.inv_init, ⟨Or.inl rfl, rfl⟩, rfl⟩

section Reset

variable {s₀ : System} {ins : ℕ → In}

theorem rested_captured {s : System} {i : In} (h : s.downsampler.Inv) (hp : s.InPhase (.capture (frameSize + 1))) :
    Rested (s.clock true i).tally (s.clock true i) := by
  have hclk := datapath_clock_captured (i := i) h hp
  have href := congrArg Datapath.refFrameBuffer hclk
  have hdiff := congrArg Datapath.diffFrameBuffer hclk
  refine ⟨rfl, rfl, rfl, rfl, rfl, ?_, ?_, ?_, ?_⟩
  · rw [hclk]
  · rw [hclk]
  · exact (congrArg Ram.latch href).trans (congrFun (congrArg Ram.mem href) 0).symm
  · exact (congrArg Ram.latch hdiff).trans (congrFun (congrArg Ram.mem hdiff) 0).symm

/-- **The pipeline in every phase**, from any reset. -/
theorem tracked_run (h₀ : AfterReset s₀) :
    ∀ t p, (runFrom s₀ ins t).InPhase p → Tracked ins (runFrom s₀ ins) t p := by
  refine phase_induction h₀.inv h₀.phase trivial fun t p p' hp hp' hn hJ => ?_
  have h := h₀.sound
  have hi := (sound_runFrom h ins t).inv
  cases hn with
  | off | accept | waitIdle | waitBegin | seize | waitPass | waitEnd | capture => trivial
  | captured => exact rested_captured hi hp
  | rest => exact (leading_of_rested (i := ins t) hp.2.1 (controlOut_rest hi hp) hJ).toRested.own
  | begin => exact (leading_of_rested (i := ins t) hp.2.1 (controlOut_rest hi hp) hJ).own
  | start => exact (Leading.start (i := ins t) hi hp hJ).own
  | proc =>
    obtain ⟨t₀, rfl⟩ : ∃ t₀, t = t₀ + 1 := by
      cases t with
      | zero => exact absurd (inPhase_unique h₀.phase hp) (by simp)
      | succ t₀ => exact ⟨t₀, rfl⟩
    exact ⟨t₀, _, _, rfl, Starting.proc hp hJ⟩
  | procBeat c hc =>
    obtain ⟨t₀, thr, S, rfl, hS⟩ := hJ
    have h2 := hp.2.2.2
    exact ⟨t₀, thr, S, by omega, hS.step hi hp hc (bwPixel_eq_frameAt h2)⟩
  | processed =>
    obtain ⟨t₀, thr, S, -, hS⟩ := hJ
    exact (hS.processed (i := ins t) hi hp).own

/-- An idle cycle changes nothing. -/
theorem tally_of_rest (h₀ : AfterReset s₀) {t : ℕ} (hp : (runFrom s₀ ins t).InPhase .rest) :
    (runFrom s₀ ins (t + 1)).tally = (runFrom s₀ ins t).tally := by
  have hi := (sound_runFrom h₀.sound ins t).inv
  have hS : Rested (runFrom s₀ ins t).tally (runFrom s₀ ins t) := tracked_run h₀ t _ hp
  exact (leading_of_rested (i := ins t) hp.2.1 (controlOut_rest hi hp) hS).toRested.tally_eq

/-- Nor does the first cycle of a transfer. -/
theorem tally_of_lead (h₀ : AfterReset s₀) {t : ℕ} (hp : (runFrom s₀ ins t).InPhase .lead) :
    (runFrom s₀ ins (t + 1)).tally = (runFrom s₀ ins t).tally := by
  have hi := (sound_runFrom h₀.sound ins t).inv
  have hS : Leading (runFrom s₀ ins t).tally (runFrom s₀ ins t) := tracked_run h₀ t _ hp
  exact (hS.start (i := ins t) hi hp).toRested.tally_eq

/-- The cycles of a transfer, from its cycle `2` on. -/
theorem inFrame_of_lead (h₀ : AfterReset s₀) {t c : ℕ}
    (hp : (runFrom s₀ ins t).InPhase .lead) (h2 : 2 ≤ c) (hc : c ≤ frameSize + 1) :
    InFrame (thresholds (ins (t + 1))) (runFrom s₀ ins t).tally (frameAt ins (runFrom s₀ ins) t) c
      (runFrom s₀ ins (t + c)) := by
  have h := h₀.sound
  obtain ⟨hstart, hproc⟩ := proc_phases h hp
  have hfirst : InFrame (thresholds (ins (t + 1))) (runFrom s₀ ins t).tally (frameAt ins (runFrom s₀ ins) t) 2
      (runFrom s₀ ins (t + 2)) := by
    have hlead : Leading (runFrom s₀ ins t).tally (runFrom s₀ ins t) := tracked_run h₀ t _ hp
    have hS : Starting (runFrom s₀ ins t).tally (runFrom s₀ ins (t + 1)) :=
      hlead.start (sound_runFrom h ins t).inv hp
    exact hS.proc hstart
  have hwindow := run_window (P := fun n s => InFrame (thresholds (ins (t + 1))) (runFrom s₀ ins t).tally
    (frameAt ins (runFrom s₀ ins) t) (2 + n) s) (t := t + 2) (n := frameSize - 1) hfirst ?_ (c - 2) (by omega)
  · rwa [show 2 + (c - 2) = c by omega, show t + 2 + (c - 2) = t + c by omega] at hwindow
  · intro n hn hS
    have hn' : 2 + n ≤ frameSize := by omega
    have hQ : (runFrom s₀ ins (t + 2 + n)).bwPixel (ins (t + 2 + n)) = frameAt ins (runFrom s₀ ins) t (2 + n - 2) := by
      rw [Nat.add_assoc]
      exact bwPixel_eq_frameAt (by omega)
    exact hS.step (sound_runFrom h _ _).inv (hproc n hn.le) hn' hQ

/-- The frame is processed in the cycle after its transfer. -/
theorem rested_of_lead (h₀ : AfterReset s₀) {t : ℕ}
    (hp : (runFrom s₀ ins t).InPhase .lead) :
    (runFrom s₀ ins (t + frameSize + 2)).InPhase .rest ∧
      Rested ((runFrom s₀ ins t).tally.process (thresholds (ins (t + 1))) (frameAt ins (runFrom s₀ ins) t))
        (runFrom s₀ ins (t + frameSize + 2)) := by
  have h := h₀.sound
  have hfs := frameSize_eq
  have hlast := (proc_phases h hp).2 (frameSize - 1) le_rfl
  rw [show t + 2 + (frameSize - 1) = t + (frameSize + 1) by omega, show 2 + (frameSize - 1) = frameSize + 1 by omega]
    at hlast
  have hi := (sound_runFrom h ins (t + (frameSize + 1))).inv
  have hS := inFrame_of_lead h₀ hp (c := frameSize + 1) (by omega) le_rfl
  have hends := transfer_ends h hp.2.2
  rw [show t + frameSize + 2 = t + (frameSize + 1) + 1 by omega] at hends ⊢
  have hd : (runFrom s₀ ins (t + (frameSize + 1) + 1)).initDone = true := by
    rw [runFrom_succ]
    exact initDone_clock _ hlast.2.1
  refine ⟨inPhase_rest (sound_runFrom h _ _) hd hends, ?_⟩
  rw [runFrom_succ]
  exact hS.processed (i := ins (t + (frameSize + 1))) hi hlast

/-- From an idle cycle to the next transfer nothing but time passes. -/
theorem leading_of_next (h₀ : AfterReset s₀) {S : Tally} {t a x : ℕ}
    (hn : Next (Begins (runFrom s₀ ins)) t x) (hta : t < a) (hax : a ≤ x) (hp : (runFrom s₀ ins a).InPhase .rest)
    (hS : Rested S (runFrom s₀ ins a)) :
    (runFrom s₀ ins x).InPhase .lead ∧ Leading S (runFrom s₀ ins x) := by
  have h := h₀.sound
  have hkeep : (runFrom s₀ ins x).InPhase .rest ∧ Rested S (runFrom s₀ ins x) ∨
      (runFrom s₀ ins x).InPhase .lead ∧ Leading S (runFrom s₀ ins x) := by
    refine hn.keep (J := fun z => (runFrom s₀ ins z).InPhase .rest ∧ Rested S (runFrom s₀ ins z) ∨
      (runFrom s₀ ins z).InPhase .lead ∧ Leading S (runFrom s₀ ins z)) hta hax (Or.inl ⟨hp, hS⟩) ?_
    intro z _ hz hJ
    have hi := (sound_runFrom h ins z).inv
    rcases hJ with ⟨hp, hS⟩ | ⟨hp, -⟩
    · have hl : Leading S (runFrom s₀ ins (z + 1)) := leading_of_rested hp.2.1 (controlOut_rest hi hp) hS
      obtain ⟨p', hp', hn'⟩ := phase_step (ins z) hi hp
      cases hn' with
      | rest => exact Or.inl ⟨hp', hl.toRested⟩
      | begin => exact Or.inr ⟨hp', hl⟩
    · exact absurd ((begins_iff h h₀.idle).mpr hp.2.2) hz
  rcases hkeep with ⟨hp, -⟩ | hl
  · exact absurd (((begins_iff h h₀.idle).mp hn.event).symm.trans hp.2.2) (by simp)
  · exact hl

/-- No transfer begins during a transfer. -/
theorem next_begins_le (h₀ : AfterReset s₀) {t x : ℕ} (hb : (runFrom s₀ ins t).beat = some 0)
    (hn : Next (Begins (runFrom s₀ ins)) t x) : t + frameSize + 2 ≤ x := by
  have h := h₀.sound
  by_contra hlt
  have hlt' := hn.lt
  obtain ⟨c, rfl⟩ := Nat.exists_eq_add_of_lt hlt'
  have hbeat := transfer_beats h hb (c + 1) (by omega)
  have hzero := (begins_iff h h₀.idle).mp hn.event
  rw [Nat.add_assoc, hbeat] at hzero
  cases hzero

/-- **The next transfer begins with the frame processed.** -/
theorem leading_next (h₀ : AfterReset s₀) {t x : ℕ}
    (hp : (runFrom s₀ ins t).InPhase .lead) (hn : Next (Begins (runFrom s₀ ins)) t x) :
    (runFrom s₀ ins x).InPhase .lead ∧
      Leading ((runFrom s₀ ins t).tally.process (thresholds (ins (t + 1))) (frameAt ins (runFrom s₀ ins) t))
        (runFrom s₀ ins x) := by
  have hle := next_begins_le h₀ hp.2.2 hn
  obtain ⟨hrest, hS⟩ := rested_of_lead h₀ hp
  exact leading_of_next h₀ hn (by omega) hle hrest hS

/-- Once there is a reference, `frame_start` comes in the second cycle of each transfer. -/
theorem fires_succ_iff (h₀ : AfterReset s₀) {t : ℕ} (hd : (runFrom s₀ ins t).initDone = true) :
    Fires ins (runFrom s₀ ins) (t + 1) ↔ Begins (runFrom s₀ ins) t := by
  have h := h₀.sound
  rw [begins_iff h h₀.idle]
  constructor
  · intro hf
    obtain ⟨p, hp, hn⟩ := phase_back h (inPhase_start (sound_runFrom h ins _) (fires_iff.mp hf))
    cases hn
    exact hp.2.2
  · intro hb
    exact fires_iff.mpr (proc_phases h (inPhase_lead (sound_runFrom h ins t) hd hb)).1.1

/-- So the next `frame_start` belongs to the next transfer. -/
theorem next_fires_iff (h₀ : AfterReset s₀) {t x : ℕ} (hd : (runFrom s₀ ins t).initDone = true) :
    Next (Fires ins (runFrom s₀ ins)) (t + 1) (x + 1) ↔ Next (Begins (runFrom s₀ ins)) t x := by
  have hiff : ∀ z, t ≤ z → (Fires ins (runFrom s₀ ins) (z + 1) ↔ Begins (runFrom s₀ ins) z) :=
    fun z hz => fires_succ_iff h₀ (initDone_mono hz hd)
  constructor
  · rintro ⟨he, hlt, hno⟩
    refine ⟨(hiff x (by omega)).mp he, by omega, fun z h1 h2 hz => ?_⟩
    exact hno (z + 1) (by omega) (by omega) ((hiff z (by omega)).mpr hz)
  · rintro ⟨he, hlt, hno⟩
    refine ⟨(hiff x (by omega)).mpr he, by omega, fun z h1 h2 hz => ?_⟩
    obtain ⟨y, rfl⟩ : ∃ y, z = y + 1 := ⟨z - 1, by omega⟩
    exact hno y (by omega) (by omega) ((hiff y (by omega)).mp hz)

/-- What the detector holds when the next transfer begins. -/
theorem tally_begins (h₀ : AfterReset s₀) {t x : ℕ}
    (hb : Begins (runFrom s₀ ins) t) (hd : (runFrom s₀ ins t).initDone = true)
    (hn : Next (Begins (runFrom s₀ ins)) t x) :
    (runFrom s₀ ins x).tally =
      (runFrom s₀ ins t).tally.process (thresholds (ins (t + 1))) (frameAt ins (runFrom s₀ ins) t) := by
  have h := h₀.sound
  have hp := inPhase_lead (sound_runFrom h ins t) hd ((begins_iff h h₀.idle).mp hb)
  exact (leading_next h₀ hp hn).2.toRested.tally_eq

/-- What the detector holds at the next `frame_start`. -/
theorem tally_fires (h₀ : AfterReset s₀) {t t' : ℕ}
    (hb : Begins (runFrom s₀ ins) t) (hd : (runFrom s₀ ins t).initDone = true)
    (hn : Next (Fires ins (runFrom s₀ ins)) (t + 1) t') :
    (runFrom s₀ ins t').tally =
      (runFrom s₀ ins t).tally.process (thresholds (ins (t + 1))) (frameAt ins (runFrom s₀ ins) t) := by
  have h := h₀.sound
  have hlt := hn.lt
  obtain ⟨x, rfl⟩ : ∃ x, t' = x + 1 := ⟨t' - 1, by omega⟩
  have hp := inPhase_lead (sound_runFrom h ins t) hd ((begins_iff h h₀.idle).mp hb)
  obtain ⟨hpx, hS⟩ := leading_next h₀ hp ((next_fires_iff h₀ hd).mp hn)
  exact (hS.start (i := ins x) (sound_runFrom h ins x).inv hpx).toRested.tally_eq

end Reset

end System

end SuspiciousPackage
