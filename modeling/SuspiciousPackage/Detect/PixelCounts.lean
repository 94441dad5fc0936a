import SuspiciousPackage.Detect.Consecutive
import SuspiciousPackage.Detect.NoFalseAlarm

/-!
# Detect.PixelCounts — what `diff_cnt` and `match_cnt` count

The counters are enabled two cycles before the first comparison and stop three pixels early: `diff_cnt` misses the last
three pixels of the frame and counts pixel `0` of the reference twice instead (`diffCnt_next`), `match_cnt` misses the
last five and counts it four times (`matchCnt_counts_iff`).
-/

namespace SuspiciousPackage

open Sync Finset

namespace System

variable {s₀ : System} {ins : ℕ → In}

/-! ## Before the first comparison -/

/-- The cells the capture clears stay clear up to the first `frame_start`. -/
def Cleared (ins : ℕ → In) (r : ℕ → System) (t : ℕ) : Phase → Prop
  | .capture c => ∀ a, 0 < a → a + 2 < c → (r t).diffMem a = false
  | .rest | .lead | .start => (∀ u < t, ¬ Fires ins r u) → (r t).tally.Fresh
  | .proc _ => ∃ u < t, Fires ins r u
  | _ => True

theorem cleared_run (h₀ : AfterReset s₀) :
    ∀ t p, (runFrom s₀ ins t).InPhase p → Cleared ins (runFrom s₀ ins) t p := by
  refine phase_induction h₀.inv h₀.phase trivial fun t p p' hp hp' hn hJ => ?_
  have hi := (sound_runFrom h₀.sound ins t).inv
  -- a cycle without `frame_start` or comparison
  have hkeep : (runFrom s₀ ins (t + 1)).tally = (runFrom s₀ ins t).tally →
      ((∀ u < t, ¬ Fires ins (runFrom s₀ ins) u) → (runFrom s₀ ins t).tally.Fresh) →
      (∀ u < t + 1, ¬ Fires ins (runFrom s₀ ins) u) → (runFrom s₀ ins (t + 1)).tally.Fresh := by
    intro heq h hno
    rw [heq]
    exact h fun u hu => hno u (by omega)
  cases hn with
  | off | accept | waitIdle | waitBegin | waitPass | waitEnd => trivial
  | seize c hc =>
    intro a h1 h2
    omega
  | capture c hc =>
    intro a h1 h2
    rw [runFrom_succ, diffMem_capture hi hp hc]
    by_cases hac : a = c - 2
    · rw [hac, Function.update_self]
    · rw [Function.update_of_ne hac]
      exact hJ a h1 (by omega)
  | captured =>
    have hw : ((runFrom s₀ ins t).controlOut (ins t)).diffWren = false := by
      rw [controlOut_captured hi hp]
      rfl
    have hclk := datapath_clock_captured (i := ins t) hi hp
    intro _
    refine ⟨congrArg (fun d => d.matchCnt.toNat) hclk, fun a h1 h2 => ?_⟩
    exact (congrFun (diffMem_of_not_wren hw) a).trans (hJ a h1 (by omega))
  | rest => exact hkeep (tally_of_rest h₀ hp) hJ
  | begin => exact hkeep (tally_of_rest h₀ hp) hJ
  | start => exact hkeep (tally_of_lead h₀ hp) hJ
  | proc => exact ⟨t, Nat.lt_succ_self t, fires_iff.mpr hp.1⟩
  | procBeat c hc =>
    obtain ⟨u, hu, hf⟩ := hJ
    exact ⟨u, by omega, hf⟩
  | processed =>
    obtain ⟨u, hu, hf⟩ := hJ
    intro hno
    exact absurd hf (hno u (by omega))

/-! ## The counters at a `frame_start` -/

section Counts

variable {p t t' : ℕ}

/-- **What `diff_cnt` holds** in the next `frame_start` cycle. -/
theorem diffCnt_next (h₀ : AfterReset s₀) (hb : Begins (runFrom s₀ ins) t) (hd : (runFrom s₀ ins t).initDone = true)
    (ht : Next (Fires ins (runFrom s₀ ins)) (t + 1) t') :
    (runFrom s₀ ins t').datapath.diffCnt.toNat =
      2 * ((runFrom s₀ ins t).refMem 0).toNat +
        changed (runFrom s₀ ins t).refMem (frameAt ins (runFrom s₀ ins) t) (range (frameSize - 3)) := by
  have htally := tally_fires h₀ hb hd ht
  exact (congrArg Tally.diffCnt htally).trans (diffCnt_process_eq _ _)

/-- **What `match_cnt` holds** there, when the transfer of `P` precedes the one of `Q`. -/
theorem matchCnt_next (h₀ : AfterReset s₀) (hb : Begins (runFrom s₀ ins) p)
    (hd : (runFrom s₀ ins p).initDone = true) (hn : Next (Begins (runFrom s₀ ins)) p t)
    (ht : Next (Fires ins (runFrom s₀ ins)) (t + 1) t') :
    (runFrom s₀ ins t').datapath.matchCnt.toNat =
      4 * ((runFrom s₀ ins t).refMem 0).toNat +
        changedTwice (runFrom s₀ ins t).refMem (frameAt ins (runFrom s₀ ins) p) (frameAt ins (runFrom s₀ ins) t)
          (range (frameSize - 5)) := by
  have hprev := tally_begins h₀ hb hd hn
  have href : (runFrom s₀ ins t).refMem = (runFrom s₀ ins p).refMem := congrArg Tally.ref hprev
  have htally := tally_fires h₀ hn.event (initDone_mono hn.lt.le hd) ht
  rw [hprev] at htally
  rw [href]
  exact (congrArg Tally.matchCnt htally).trans (matchCnt_process_process _ _ _)

/-- … and when `Q` is the first frame after the capture. -/
theorem matchCnt_first (h₀ : AfterReset s₀) (hb : Begins (runFrom s₀ ins) t)
    (hd : (runFrom s₀ ins t).initDone = true) (ht : Next (Fires ins (runFrom s₀ ins)) (t + 1) t')
    (hfirst : ∀ u < t, ¬ Fires ins (runFrom s₀ ins) u) :
    (runFrom s₀ ins (t + 1)).datapath.matchCnt.toNat = 0 ∧
      (runFrom s₀ ins t').datapath.matchCnt.toNat =
        3 * ((runFrom s₀ ins t).refMem 0 && (runFrom s₀ ins t).diffMem 0).toNat := by
  have hp := inPhase_lead (sound_runFrom h₀.sound ins t) hd ((begins_iff h₀.sound h₀.idle).mp hb)
  have hfresh : (runFrom s₀ ins t).tally.Fresh := cleared_run h₀ t _ hp hfirst
  constructor
  · exact (congrArg Tally.matchCnt (tally_of_lead h₀ hp)).trans hfresh.matchCnt
  · exact (congrArg Tally.matchCnt (tally_fires h₀ hb hd ht)).trans (hfresh.matchCnt_process _)

end Counts

/-! ## Still frames, back to back -/

section Still

variable (F : ℕ → Bool) (thr : Thresholds)

theorem begins_stillFrames (k : ℕ) : Begins (runFrom init (stillFrames F thr)) (beginCycle k) :=
  (begins_iff sound_init rfl).mpr (beat_beginCycle _ _ k)

theorem next_begins_stillFrames (k : ℕ) :
    Next (Begins (runFrom init (stillFrames F thr))) (beginCycle k) (beginCycle (k + 1)) := by
  refine ⟨begins_stillFrames F thr (k + 1), ?_, fun z h1 h2 hz => ?_⟩
  · rw [beginCycle_succ]
    omega
  · have hb := (begins_iff sound_init rfl).mp hz
    have hnext := beginCycle_succ k
    obtain ⟨c, rfl⟩ := Nat.exists_eq_add_of_lt h1
    have hbeat := beat_beginCycle (fun t => bwWord (F ((t - 4) % (frameSize + 3)))) thr k
    rcases show c + 1 ≤ frameSize + 1 ∨ c = frameSize + 1 by omega with h | rfl
    · cases (transfer_beats sound_init hbeat (c + 1) h).symm.trans hb
    · cases (transfer_ends sound_init hbeat).symm.trans hb

theorem initDone_stillFrames {k : ℕ} (hk : 1 ≤ k) : (runFrom init (stillFrames F thr) (beginCycle k)).initDone = true :=
  (lead_backToBack _ _ hk).2.1

theorem next_fires_stillFrames {k : ℕ} (hk : 1 ≤ k) :
    Next (Fires (stillFrames F thr) (runFrom init (stillFrames F thr))) (beginCycle k + 1) (beginCycle (k + 1) + 1) :=
  (next_fires_iff afterReset_init (initDone_stillFrames F thr hk)).mpr (next_begins_stillFrames F thr k)

theorem not_fires_stillFrames {u : ℕ} (hu : u < beginCycle 1) :
    ¬ Fires (stillFrames F thr) (runFrom init (stillFrames F thr)) u := by
  intro hf
  have hstart := inPhase_start (sound_runFrom sound_init _ u) (fires_iff.mp hf)
  rw [beginCycle_succ] at hu
  rcases show u < beginCycle 0 + frameSize + 2 ∨ u = beginCycle 0 + frameSize + 2 by omega with h | rfl
  · exact absurd (hstart.2.1.symm.trans (initDone_low_backToBack _ _ h)) (by simp)
  · exact absurd (inPhase_unique hstart (rest_backToBack _ _)) (by simp)

theorem frameAt_stillFrames (k : ℕ) {a : ℕ} (ha : a < frameSize) :
    frameAt (stillFrames F thr) (runFrom init (stillFrames F thr)) (beginCycle k) a = F a :=
  delivers_stillFrames F thr k _ (kth_taken_backToBack _ thr k) a ha

theorem refMem_stillFrames {k : ℕ} (hk : 1 ≤ k) :
    (runFrom init (stillFrames F thr) (beginCycle k)).refMem = storedFrame F := by
  have hidle : StartsIdle (stillFrames F thr) (runFrom init (stillFrames F thr)) :=
    startsIdle_of_one (fun _ => rfl) ⟨rfl, rfl⟩
  have hthr : ∀ t, thresholds (stillFrames F thr t) = thr := fun _ => rfl
  obtain ⟨-, -, hS⟩ := followed hidle hthr (delivers_stillFrames F thr) _ _ (lead_backToBack _ thr hk)
  exact hS.ref.trans (Tally.afterFrames_ref _ _ _)

/-- Only the last pixel can differ from the reference, which does not have it. -/
theorem changed_stillFrames (k : ℕ) :
    changed (storedFrame F) (frameAt (stillFrames F thr) (runFrom init (stillFrames F thr)) (beginCycle k))
      (range frameSize) ≤ 1 := by
  refine changed_le_one (b := frameSize - 1) fun a ha hne => ?_
  rw [mem_range] at ha
  rw [frameAt_stillFrames F thr k ha]
  unfold storedFrame
  rw [if_pos (by omega)]

theorem changedTwice_stillFrames (P : ℕ → Bool) (k : ℕ) :
    changedTwice (storedFrame F) P (frameAt (stillFrames F thr) (runFrom init (stillFrames F thr)) (beginCycle k))
      (range frameSize) ≤ 1 :=
  changedTwice_le_changed.trans (changed_stillFrames F thr k)

variable {F}

/-- With a black pixel `0` still frames count two differences, or three … -/
theorem diffCnt_stillFrames (h0 : F 0 = true) {k : ℕ} (hk : 1 ≤ k) :
    2 ≤ (runFrom init (stillFrames F thr) (beginCycle (k + 1) + 1)).datapath.diffCnt.toNat ∧
      (runFrom init (stillFrames F thr) (beginCycle (k + 1) + 1)).datapath.diffCnt.toNat ≤ 3 := by
  have hzero : storedFrame F 0 = true := (if_pos (by rw [frameSize_eq]; omega)).trans h0
  have hone := changed_stillFrames F thr k
  rw [changed_range_add (Nat.sub_le frameSize 3)] at hone
  rw [diffCnt_next afterReset_init (begins_stillFrames F thr k) (initDone_stillFrames F thr hk)
    (next_fires_stillFrames F thr hk), refMem_stillFrames F thr hk, hzero]
  have htwo : 2 * true.toNat = 2 := rfl
  omega

/-- … and four matches. -/
theorem matchCnt_stillFrames (h0 : F 0 = true) {k : ℕ} (hk : 1 ≤ k) :
    4 ≤ (runFrom init (stillFrames F thr) (beginCycle (k + 2) + 1)).datapath.matchCnt.toNat := by
  have hzero : storedFrame F 0 = true := (if_pos (by rw [frameSize_eq]; omega)).trans h0
  rw [matchCnt_next afterReset_init (begins_stillFrames F thr k) (initDone_stillFrames F thr hk)
    (next_begins_stillFrames F thr k) (next_fires_stillFrames F thr (by omega)), refMem_stillFrames F thr (by omega), hzero]
  exact Nat.le_add_right 4 _

theorem blackFrames_eq : blackFrames = stillFrames (fun _ => true) ⟨0, 0, 1⟩ := rfl

end Still

/-! ## When the counts are right -/

/-- White frames back to back. -/
def whiteFrames : ℕ → In := stillFrames (fun _ => false) ⟨0, 0, 1⟩

/-- **When `match_cnt` counts the pixels changed twice.**  From reset, for the frame transferred from cycle `t` on, after
`init_done`, in the next `frame_start` cycle.  After another such frame: iff, of the last five pixels, none is changed in
both frames when pixel `0` of the reference is white, and four are when it is black, and in the latter case two more
pixels are changed, not counting the last three, than are changed in both, not counting the last five.  For the first
frame: iff pixel `0` of the reference is white or the difference RAM holds no `1` at address `0`. -/
theorem matchCnt_counts_iff (s : System) (i : In) (ins : ℕ → In) (r : ℕ → System)
    (hr : r = runFrom (s.clock false i) ins) (t t' : ℕ) (hb : Begins r t) (hd : (r t).initDone = true)
    (ht : Next (Fires ins r) (t + 1) t') :
    (∀ p, (r p).initDone = true → Begins r p → Next (Begins r) p t →
      ((r t').datapath.matchCnt.toNat =
          changedTwice (r t).refMem (frameAt ins r p) (frameAt ins r t) (range frameSize) ∧
        (r t').datapath.matchCnt.toNat ≤ (r t').datapath.diffCnt.toNat ↔
      changedTwice (r t).refMem (frameAt ins r p) (frameAt ins r t) (Ico (frameSize - 5) frameSize) =
          4 * ((r t).refMem 0).toNat ∧
        changedTwice (r t).refMem (frameAt ins r p) (frameAt ins r t) (range (frameSize - 5)) +
          2 * ((r t).refMem 0).toNat ≤ changed (r t).refMem (frameAt ins r t) (range (frameSize - 3)))) ∧
    ((∀ u < t, ¬ Fires ins r u) →
      ((r (t + 1)).datapath.matchCnt.toNat ≤ (r (t + 1)).datapath.diffCnt.toNat ∧
        (r t').datapath.matchCnt.toNat = 0 ∧
        (r t').datapath.matchCnt.toNat ≤ (r t').datapath.diffCnt.toNat ↔
      ¬ ((r t).refMem 0 = true ∧ (r t).diffMem 0 = true))) := by
  subst hr
  have h₀ := afterReset s i
  have hdiff := diffCnt_next h₀ hb hd ht
  constructor
  · intro p hdp hbp hn
    rw [matchCnt_next h₀ hbp hdp hn ht, hdiff, changedTwice_range_add (Nat.sub_le frameSize 5)]
    omega
  · intro hfirst
    obtain ⟨hzero, hmatch⟩ := matchCnt_first h₀ hb hd ht hfirst
    rw [hzero, hmatch, ← Bool.and_eq_true, Bool.not_eq_true]
    constructor
    · rintro ⟨-, h, -⟩
      rw [← Bool.toNat_eq_zero]
      omega
    · intro h
      rw [h]
      exact ⟨Nat.zero_le _, rfl, Nat.zero_le _⟩

/-- White frames back to back: the second one compared, and the first. -/
theorem matchCnt_counts_white :
    ((runFrom init whiteFrames (beginCycle 3 + 1)).datapath.matchCnt.toNat =
        changedTwice (runFrom init whiteFrames (beginCycle 2)).refMem
          (frameAt whiteFrames (runFrom init whiteFrames) (beginCycle 1))
          (frameAt whiteFrames (runFrom init whiteFrames) (beginCycle 2)) (range frameSize) ∧
      (runFrom init whiteFrames (beginCycle 3 + 1)).datapath.matchCnt.toNat ≤
        (runFrom init whiteFrames (beginCycle 3 + 1)).datapath.diffCnt.toNat) ∧
    (runFrom init whiteFrames (beginCycle 2 + 1)).datapath.matchCnt.toNat = 0 := by
  have href : ∀ k, 1 ≤ k → (runFrom init whiteFrames (beginCycle k)).refMem = fun _ => false :=
    fun k hk => (refMem_stillFrames (fun _ => false) _ hk).trans storedFrame_false
  have hzero : ∀ I : Finset ℕ, (∀ a ∈ I, a < frameSize) → ∀ P,
      changedTwice (fun _ => false) P (frameAt whiteFrames (runFrom init whiteFrames) (beginCycle 2)) I = 0 := by
    intro I hI P
    refine Nat.eq_zero_of_le_zero (changedTwice_le_changed.trans_eq (changed_eq_zero fun a ha => ?_))
    exact frameAt_stillFrames _ _ 2 (hI a ha)
  constructor
  · refine ((matchCnt_counts_iff init (whiteFrames 0) whiteFrames (runFrom init whiteFrames) rfl (beginCycle 2) _
      (begins_stillFrames _ _ 2) (initDone_stillFrames _ _ (by omega)) (next_fires_stillFrames _ _ (by omega))).1
      (beginCycle 1) (initDone_stillFrames _ _ le_rfl) (begins_stillFrames _ _ 1) (next_begins_stillFrames _ _ 1)).mpr ?_
    rw [href 2 (by omega), hzero _ (fun a ha => (mem_Ico.mp ha).2), hzero _ fun a ha => ?_]
    · exact ⟨rfl, Nat.zero_le _⟩
    · have := mem_range.mp ha
      omega
  · refine (((matchCnt_counts_iff init (whiteFrames 0) whiteFrames (runFrom init whiteFrames) rfl (beginCycle 1) _
      (begins_stillFrames _ _ 1) (initDone_stillFrames _ _ le_rfl) (next_fires_stillFrames _ _ le_rfl)).2
      fun u hu => not_fires_stillFrames _ _ hu).mpr ?_).2.1
    rw [href 1 le_rfl]
    rintro ⟨h, -⟩
    cases h

/-- On black frames back to back at most one pixel is changed in both frames, and `4` are counted, more than `diff_cnt`
counts. -/
theorem matchCnt_black :
    (runFrom init blackFrames (beginCycle 3 + 1)).datapath.matchCnt.toNat ≠
        changedTwice (runFrom init blackFrames (beginCycle 2)).refMem
          (frameAt blackFrames (runFrom init blackFrames) (beginCycle 1))
          (frameAt blackFrames (runFrom init blackFrames) (beginCycle 2)) (range frameSize) ∧
      ¬ (runFrom init blackFrames (beginCycle 3 + 1)).datapath.matchCnt.toNat ≤
        (runFrom init blackFrames (beginCycle 3 + 1)).datapath.diffCnt.toNat := by
  rw [blackFrames_eq, refMem_stillFrames _ _ (by omega)]
  have hdiff : (runFrom init (stillFrames (fun _ => true) ⟨0, 0, 1⟩) (beginCycle 3 + 1)).datapath.diffCnt.toNat ≤ 3 :=
    (diffCnt_stillFrames _ rfl (show 1 ≤ 2 by omega)).2
  have hmatch : 4 ≤ (runFrom init (stillFrames (fun _ => true) ⟨0, 0, 1⟩) (beginCycle 3 + 1)).datapath.matchCnt.toNat :=
    matchCnt_stillFrames _ rfl (le_refl 1)
  constructor
  · exact ((changedTwice_stillFrames _ _ _ 2).trans_lt (by omega)).ne'
  · omega

end System

end SuspiciousPackage
