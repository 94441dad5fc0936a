import SuspiciousPackage.Detect.Phase

/-!
# Detect.Transfers — transfers along a run from reset

`Begins r t`: a transfer of the downsampler begins in cycle `t` (`transfer` rises).  `transfer_beats` gives the
`frameSize + 2` cycles of a transfer, `capture_phases` and `proc_phases` the phases of the FSM during it, and
`phase_induction` is the induction over the phases of a run.
-/

namespace SuspiciousPackage

open Sync

namespace System

variable {s₀ : System} {ins : ℕ → In}

/-- States with the downsampler's invariant in some phase. -/
structure Sound (s : System) : Prop where
  inv : s.downsampler.Inv
  phase : ∃ p, s.InPhase p

/-- One cycle with `resetn` low leaves the pair in phase `off`. -/
theorem inPhase_reset (s : System) (i : In) : (s.clock false i).InPhase .off :=
  ⟨Or.inl rfl, rfl⟩

theorem sound_reset (s : System) (i : In) : (s.clock false i).Sound :=
  ⟨Downsampler.inv_init, _, inPhase_reset s i⟩

theorem sound_init : init.Sound := ⟨Downsampler.inv_init, .off, Or.inl rfl, rfl⟩

/-- Power-up is a reset state: resetting it changes nothing. -/
theorem clock_reset_init (i : In) : init.clock false i = init := rfl

theorem sound_clock {s : System} (h : s.Sound) (i : In) : (s.clock true i).Sound := by
  obtain ⟨p, hp⟩ := h.phase
  obtain ⟨p', hp', -⟩ := phase_step i h.inv hp
  exact ⟨inv_clock i h.inv, p', hp'⟩

theorem initDone_clock {s : System} (i : In) (hd : s.initDone = true) : (s.clock true i).initDone = true := by
  rw [clock_initDone, hd, Bool.or_true]

/-- `init_done` is a level: it stays high. -/
theorem initDone_mono {t u : ℕ} (htu : t ≤ u) (hd : (runFrom s₀ ins t).initDone = true) :
    (runFrom s₀ ins u).initDone = true := by
  induction u, htu using Nat.le_induction with
  | base => exact hd
  | succ u _ ih => exact initDone_clock _ ih

theorem initDone_low {t u : ℕ} (htu : t ≤ u) (hd : (runFrom s₀ ins u).initDone = false) :
    (runFrom s₀ ins t).initDone = false := by
  by_contra h
  rw [Bool.not_eq_false] at h
  rw [initDone_mono htu h] at hd
  cases hd

/-- Every state of a run from a sound state is sound. -/
theorem sound_runFrom (h : s₀.Sound) (ins : ℕ → In) (t : ℕ) : (runFrom s₀ ins t).Sound :=
  run_inv h (fun i _ hs => sound_clock hs i) t

/-! ## Induction over the phases of a run -/

/-- A state is in one phase only. -/
theorem inPhase_unique {s : System} {p q : Phase} (hp : s.InPhase p) (hq : s.InPhase q) : p = q := by
  cases p <;> cases q <;> simp_all [InPhase]

/-- The phase before the last clock edge. -/
theorem phase_back (h : s₀.Sound) {t : ℕ} {p' : Phase} (hp' : (runFrom s₀ ins (t + 1)).InPhase p') :
    ∃ p, (runFrom s₀ ins t).InPhase p ∧ Phase.Next p p' := by
  obtain ⟨hinv, p, hp⟩ := sound_runFrom h ins t
  obtain ⟨q, hq, hn⟩ := phase_step (ins t) hinv hp
  exact ⟨p, hp, inPhase_unique hq hp' ▸ hn⟩

/-- **Phase induction**: a property `J` of cycles and their phases holds along a run from phase `off` when every
move of the two machines keeps it. -/
theorem phase_induction (hinv : s₀.downsampler.Inv) (h0 : s₀.InPhase .off) {J : ℕ → Phase → Prop}
    (hJ0 : J 0 .off)
    (hstep : ∀ t p p', (runFrom s₀ ins t).InPhase p → (runFrom s₀ ins (t + 1)).InPhase p' →
      Phase.Next p p' → J t p → J (t + 1) p') :
    ∀ t p, (runFrom s₀ ins t).InPhase p → J t p := by
  intro t
  induction t with
  | zero => intro p hp; exact inPhase_unique h0 hp ▸ hJ0
  | succ t ih =>
    intro p' hp'
    obtain ⟨p, hp, hn⟩ := phase_back ⟨hinv, _, h0⟩ hp'
    exact hstep t p p' hp hp' hn (ih p hp)

/-! ## States with a reference -/

/-- The phases with a reference. -/
theorem initDone_phase {s : System} (h : s.Sound) (hd : s.initDone = true) :
    s.InPhase .rest ∨ s.InPhase .lead ∨ s.InPhase .start ∨ ∃ c, s.InPhase (.proc c) := by
  obtain ⟨p, hp⟩ := h.phase
  cases p with
  | off => exact absurd hd (by simp [hp.2])
  | wait b => exact absurd hd (by simp [hp.2.1])
  | capture c => exact absurd hd (by simp [hp.2.1])
  | rest => exact Or.inl hp
  | lead => exact Or.inr (Or.inl hp)
  | start => exact Or.inr (Or.inr (Or.inl hp))
  | proc c => exact Or.inr (Or.inr (Or.inr ⟨c, hp⟩))

/-- With a reference the datapath is not reset. -/
theorem resetnDatapath_of_initDone {s : System} {i : In} (h : s.Sound) (hd : s.initDone = true) :
    (s.controlOut i).resetnDatapath = true := by
  by_contra hr
  rw [Bool.not_eq_true] at hr
  have hoff := Control.comb_resetnDatapath hr
  rcases initDone_phase h hd with hp | hp | hp | ⟨c, hp⟩ <;> rcases hoff with ho | ho <;>
    exact absurd (ho.symm.trans hp.1) (by simp)

theorem inPhase_rest {s : System} (h : s.Sound) (hd : s.initDone = true) (hb : s.beat = none) :
    s.InPhase .rest := by
  rcases initDone_phase h hd with hp | hp | hp | ⟨c, hp⟩
  · exact hp
  · exact absurd hb (by simp [hp.2.2])
  · exact absurd hb (by simp [hp.2.2])
  · exact absurd hb (by simp [hp.2.2.1])

theorem inPhase_lead {s : System} (h : s.Sound) (hd : s.initDone = true) (hb : s.beat = some 0) :
    s.InPhase .lead := by
  rcases initDone_phase h hd with hp | hp | hp | ⟨c, hp⟩
  · exact absurd hb (by simp [hp.2.2])
  · exact hp
  · exact absurd hb (by simp [hp.2.2])
  · have h2 := hp.2.2.2
    have hc : c = 0 := by simpa [hb] using hp.2.2.1.symm
    omega

theorem inPhase_start {s : System} (h : s.Sound) (hs : s.currState = .startFrame) : s.InPhase .start := by
  obtain ⟨p, hp⟩ := h.phase
  cases p with
  | start => exact hp
  | off => rcases hp.1 with h | h <;> exact absurd (h.symm.trans hs) (by simp)
  | wait | capture | rest | lead | proc => exact absurd (hp.1.symm.trans hs) (by simp)

/-! ## Beats of a transfer -/

/-- A transfer begins in cycle `t`: `transfer` is high and was low in the cycle before. -/
def Begins (r : ℕ → System) (t : ℕ) : Prop :=
  (r t).downsampler.transfer = true ∧ ∀ u, u + 1 = t → (r u).downsampler.transfer = false

theorem beat_eq_none_iff {s : System} : s.beat = none ↔ s.downsampler.transfer = false :=
  Downsampler.beat_eq_none

theorem begins_iff (h : s₀.Sound) (h0 : s₀.beat = none) {t : ℕ} :
    Begins (runFrom s₀ ins) t ↔ (runFrom s₀ ins t).beat = some 0 := by
  cases t with
  | zero =>
    refine ⟨fun hb => ?_, fun hb => ?_⟩
    · have ht : s₀.downsampler.transfer = true := hb.1
      rw [beat_eq_none_iff.mp h0] at ht
      cases ht
    · have hb' : s₀.beat = some 0 := hb
      rw [h0] at hb'
      cases hb'
  | succ t =>
    have hinv := (sound_runFrom h ins t).inv
    refine ⟨fun hb => ?_, fun hb => ⟨(Downsampler.beat_eq_some.mp hb).1, ?_⟩⟩
    · have hlow := beat_eq_none_iff.mpr (hb.2 t rfl)
      rcases beat_clock_none (ins t) hinv hlow with h' | h'
      · have ht := beat_eq_none_iff.mp h'
        rw [← runFrom_succ, hb.1] at ht
        cases ht
      · exact h'
    · rintro u hu
      obtain rfl : u = t := by omega
      rw [← beat_eq_none_iff]
      rcases Downsampler.clock_cases hinv (downsamplerIn (ins u)) with h' | h' | ⟨c, -, -, h', -⟩ | ⟨-, h', -⟩
      · exact h'.1
      · exact h'.1
      · exact absurd (h'.symm.trans hb) (by simp)
      · exact absurd (h'.symm.trans hb) (by simp)

/-- **A transfer is `frameSize + 2` consecutive cycles**, uninterruptible. -/
theorem transfer_beats (h : s₀.Sound) {t : ℕ} (hb : (runFrom s₀ ins t).beat = some 0) :
    ∀ c ≤ frameSize + 1, (runFrom s₀ ins (t + c)).beat = some c :=
  run_window (P := fun c (s : System) => s.beat = some c) hb
    (fun c hc hb => beat_clock_some _ (sound_runFrom h _ _).inv hb (by omega))

theorem transfer_ends (h : s₀.Sound) {t : ℕ} (hb : (runFrom s₀ ins t).beat = some 0) :
    (runFrom s₀ ins (t + frameSize + 2)).beat = none := by
  rw [show t + frameSize + 2 = t + (frameSize + 1) + 1 by omega, runFrom_succ]
  exact beat_clock_last _ (sound_runFrom h _ _).inv (transfer_beats h hb _ le_rfl)

/-- The beginning of the transfer in progress. -/
theorem beat_back (h : s₀.Sound) (h0 : s₀.beat = none) {c t : ℕ} (hb : (runFrom s₀ ins t).beat = some c) :
    ∃ t₀, t = t₀ + c ∧ (runFrom s₀ ins t₀).beat = some 0 := by
  induction t generalizing c with
  | zero =>
    have hb' : s₀.beat = some c := hb
    rw [h0] at hb'
    cases hb'
  | succ t ih =>
    have hinv := (sound_runFrom h ins t).inv
    rcases Downsampler.clock_cases hinv (downsamplerIn (ins t)) with
      ⟨-, h', -⟩ | ⟨-, h', -⟩ | ⟨c', -, hc', h', -⟩ | ⟨-, h', -⟩
    · cases h'.symm.trans hb
    · cases h'.symm.trans hb
      exact ⟨t + 1, rfl, hb⟩
    · cases h'.symm.trans hb
      obtain ⟨t₀, ht, hb₀⟩ := ih hc'
      exact ⟨t₀, by omega, hb₀⟩
    · cases h'.symm.trans hb

/-! ## Phases during a transfer -/

/-- Once seized at cycle `e` of a transfer, the reference capture lasts to the end of the transfer. -/
theorem capture_phases (h : s₀.Sound) {t e : ℕ} (hp : (runFrom s₀ ins t).InPhase (.capture e)) :
    ∀ c ≤ frameSize + 1 - e, (runFrom s₀ ins (t + c)).InPhase (.capture (e + c)) := by
  refine run_window (P := fun c (s : System) => s.InPhase (.capture (e + c))) hp ?_
  intro c hc hp
  obtain ⟨p', hp', hn⟩ := phase_step (ins (t + c)) (sound_runFrom h _ _).inv hp
  generalize hcc : e + c = k at hn
  cases hn with
  | capture _ h' => subst hcc; exact hp'
  | captured => omega

/-- The capture ends with the transfer, and `init_done` goes high. -/
theorem rest_of_capture (h : s₀.Sound) {t e : ℕ} (hp : (runFrom s₀ ins t).InPhase (.capture e)) :
    (runFrom s₀ ins (t + (frameSize + 1 - e) + 1)).InPhase .rest := by
  have he : e ≤ frameSize + 1 := Downsampler.beat_le (sound_runFrom h _ t).inv hp.2.2.1
  have hlast := capture_phases h hp _ le_rfl
  rw [show e + (frameSize + 1 - e) = frameSize + 1 by omega] at hlast
  obtain ⟨p', hp', hn⟩ := phase_step (ins _) (sound_runFrom h _ _).inv hlast
  cases hn with
  | capture _ h' => omega
  | captured => exact hp'

/-- After the capture, each transfer is processed from its cycle `2` on. -/
theorem proc_phases (h : s₀.Sound) {t : ℕ} (hp : (runFrom s₀ ins t).InPhase .lead) :
    (runFrom s₀ ins (t + 1)).InPhase .start ∧
      ∀ c ≤ frameSize - 1, (runFrom s₀ ins (t + 2 + c)).InPhase (.proc (2 + c)) := by
  have hstart : (runFrom s₀ ins (t + 1)).InPhase .start := by
    obtain ⟨p', hp', hn⟩ := phase_step (ins t) (sound_runFrom h _ _).inv hp
    cases hn
    exact hp'
  refine ⟨hstart, run_window (P := fun c (s : System) => s.InPhase (.proc (2 + c))) ?_ fun c hc hp => ?_⟩
  · obtain ⟨p', hp', hn⟩ := phase_step (ins (t + 1)) (sound_runFrom h _ _).inv hstart
    cases hn
    exact hp'
  · obtain ⟨p', hp', hn⟩ := phase_step (ins (t + 2 + c)) (sound_runFrom h _ _).inv hp
    have hfs := frameSize_eq
    generalize hcc : 2 + c = k at hn
    cases hn with
    | procBeat _ h' => subst hcc; exact hp'
    | processed => omega

end System

end SuspiciousPackage
