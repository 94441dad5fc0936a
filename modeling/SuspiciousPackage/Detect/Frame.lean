import SuspiciousPackage.Camera.Downsampler
import SuspiciousPackage.Detect.Datapath
import Mathlib.Algebra.BigOperators.Intervals
import Mathlib.Algebra.Order.BigOperators.Group.Finset

/-!
# Detect.Frame — the detector frame by frame

The abstract model of `obj_det_datapath`: what one processed frame does to the reference, the difference frame, the
two pixel counts and the suspicion level, with no clock in it.  Cycle `j` of a transfer compares pixel `j - 4` of the
frame with the reference, so the cycles `2` and `3` see the reference's pixel `0` against nothing: `diffCnt_process`
counts these two along with the pixels `0, …, frameSize - 4`.
-/

namespace SuspiciousPackage

open Finset

section Bits

variable (R D Q : ℕ → Bool)

/-- The difference seen in cycle `j` of the transfer of `Q` over the reference `R`. -/
def diffBit (j : ℕ) : Bool := R (j - 4) ^^ (decide (4 ≤ j) && Q (j - 4))

/-- The match seen in cycle `j`, `D` being the previous difference frame. -/
def matchBit (j : ℕ) : Bool := diffBit R Q (j - 2) && D (j - 4)

/-- The number of cycles before cycle `c`, from cycle `2` on, in which `b` is seen. -/
def seen (b : ℕ → Bool) (c : ℕ) : ℕ := ∑ j ∈ Ico 2 c, (b j).toNat

/-- The difference frame after the cycles before `c`. -/
def diffFrame (c a : ℕ) : Bool := if a + 2 < c then diffBit R Q (a + 2) else D a

/-- What the capture of `Q` leaves in a reference RAM of zeros: its last pixel is not stored. -/
def storedFrame (a : ℕ) : Bool := if a < frameSize - 1 then Q a else false

/-- The number of pixels of `I` in which `Q` differs from the reference. -/
def changed (I : Finset ℕ) : ℕ := #{a ∈ I | Q a ≠ R a}

end Bits

/-- The number of pixels of `I` in which both `P` and `Q` differ from the reference. -/
def changedTwice (R P Q : ℕ → Bool) (I : Finset ℕ) : ℕ := #{a ∈ I | P a ≠ R a ∧ Q a ≠ R a}

/-- The detector between two frames. -/
structure Tally where
  ref : ℕ → Bool
  diff : ℕ → Bool
  diffCnt : ℕ
  matchCnt : ℕ
  suspicion : BitVec 9

namespace Tally

/-- No match counted yet, and no difference stored but in the cells the capture may leave out. -/
structure Fresh (s : Tally) : Prop where
  matchCnt : s.matchCnt = 0
  diff : ∀ a, 0 < a → a < frameSize - 1 → s.diff a = false

variable (thr : Thresholds) (F : ℕ → ℕ → Bool)

/-- After the reference capture of the frame `Q`. -/
def capture (Q : ℕ → Bool) : Tally := ⟨storedFrame Q, fun _ => false, 0, 0, 0⟩

def frameMatch (s : Tally) : Prop := thr.object.toNat < s.diffCnt ∧ thr.static.toNat < s.matchCnt

instance (s : Tally) : Decidable (s.frameMatch thr) := inferInstanceAs (Decidable (_ ∧ _))

/-- The suspicion level from the `frame_start` of the next frame on. -/
def nextSuspicion (s : Tally) : BitVec 9 :=
  if s.frameMatch thr then
    (if s.suspicion.toNat < thr.suspicion.toNat then s.suspicion + 1 else s.suspicion)
  else 0

/-- After the processing of the frame `Q`. -/
def process (Q : ℕ → Bool) (s : Tally) : Tally where
  ref := s.ref
  diff := diffFrame s.ref s.diff Q (frameSize + 1)
  diffCnt := seen (diffBit s.ref Q) (frameSize + 1)
  matchCnt := seen (matchBit s.ref s.diff Q) (frameSize + 1)
  suspicion := s.nextSuspicion thr

/-- After `k` processed frames: frame `0` is the reference. -/
def afterFrames : ℕ → Tally
  | 0 => capture (F 0)
  | k + 1 => (afterFrames k).process thr (F (k + 1))

theorem afterFrames_ref (k : ℕ) : (afterFrames thr F k).ref = storedFrame (F 0) := by
  induction k with
  | zero => rfl
  | succ k ih => exact ih

theorem afterFrames_suspicion (k : ℕ) :
    (afterFrames thr F (k + 1)).suspicion = (afterFrames thr F k).nextSuspicion thr := rfl

end Tally

theorem storedFrame_false : storedFrame (fun _ => false) = fun _ => false := by
  funext a
  unfold storedFrame
  rw [ite_self]

/-! ## Counting -/

section Counting

variable {R D Q : ℕ → Bool} {b : ℕ → Bool} {c : ℕ}

@[simp] theorem seen_two : seen b 2 = 0 := rfl

theorem seen_succ (h : 2 ≤ c) : seen b (c + 1) = seen b c + (b c).toNat := Finset.sum_Ico_succ_top h _

/-- At most one for each cycle. -/
theorem seen_le : seen b c ≤ c - 2 := by
  have h : seen b c ≤ ∑ _j ∈ Ico 2 c, 1 := Finset.sum_le_sum fun j _ => Bool.toNat_le (b j)
  rw [Finset.sum_const, Nat.card_Ico] at h
  exact h.trans_eq (Nat.mul_one _)

theorem seen_mono {c' : ℕ} (h : c ≤ c') : seen b c ≤ seen b c' :=
  Finset.sum_le_sum_of_subset (Finset.Ico_subset_Ico_right h)

@[simp] theorem diffFrame_two (a : ℕ) : diffFrame R D Q 2 a = D a := by
  simp [diffFrame]

/-- Storing the difference of cycle `c` at address `c - 2`. -/
theorem diffFrame_succ (h : 2 ≤ c) :
    Function.update (diffFrame R D Q c) (c - 2) (diffBit R Q c) = diffFrame R D Q (c + 1) := by
  funext a
  by_cases ha : a = c - 2
  · rw [ha, Function.update_self]
    unfold diffFrame
    rw [if_pos (by omega), show c - 2 + 2 = c by omega]
  · rw [Function.update_of_ne ha]
    unfold diffFrame
    by_cases hc : a + 2 < c
    · rw [if_pos hc, if_pos (by omega)]
    · rw [if_neg hc, if_neg (by omega)]

theorem diffBit_of_lt {j : ℕ} (h : j < 4) : diffBit R Q j = R 0 := by
  unfold diffBit
  rw [decide_eq_false (by omega), Bool.false_and, Bool.xor_false, show j - 4 = 0 by omega]

theorem diffBit_add_four (a : ℕ) : diffBit R Q (a + 4) = (R a ^^ Q a) := by
  simp [diffBit]

/-- **What `diff_cnt` counts**: the pixels that differ from the reference, and twice the reference's pixel `0`. -/
theorem seen_diffBit (n : ℕ) :
    seen (diffBit R Q) (n + 4) = 2 * (R 0).toNat + ∑ a ∈ range n, (R a ^^ Q a).toNat := by
  induction n with
  | zero =>
    rw [seen_succ (by omega), seen_succ (by omega), seen_two, diffBit_of_lt (by omega), diffBit_of_lt (by omega)]
    simp
    omega
  | succ n ih =>
    rw [show n + 1 + 4 = n + 4 + 1 by omega, seen_succ (by omega), ih, diffBit_add_four, Finset.sum_range_succ]
    omega

theorem diffCnt_process (thr : Thresholds) (s : Tally) :
    (s.process thr Q).diffCnt =
      2 * (s.ref 0).toNat + ∑ a ∈ range (frameSize - 3), (s.ref a ^^ Q a).toNat := by
  rw [← seen_diffBit]
  rfl

theorem changed_eq_sum (I : Finset ℕ) : changed R Q I = ∑ a ∈ I, (R a ^^ Q a).toNat := by
  unfold changed
  rw [Finset.card_filter]
  refine Finset.sum_congr rfl fun a _ => ?_
  cases R a <;> cases Q a <;> rfl

theorem changedTwice_eq_sum {P : ℕ → Bool} (I : Finset ℕ) :
    changedTwice R P Q I = ∑ a ∈ I, ((R a ^^ Q a) && (R a ^^ P a)).toNat := by
  unfold changedTwice
  rw [Finset.card_filter]
  refine Finset.sum_congr rfl fun a _ => ?_
  cases R a <;> cases Q a <;> cases P a <;> rfl

theorem changed_eq_zero {I : Finset ℕ} (h : ∀ a ∈ I, Q a = R a) : changed R Q I = 0 := by
  unfold changed
  rw [Finset.card_eq_zero, Finset.filter_eq_empty_iff]
  intro a ha hne
  exact hne (h a ha)

theorem changedTwice_le_changed {P : ℕ → Bool} {I : Finset ℕ} : changedTwice R P Q I ≤ changed R Q I :=
  Finset.card_le_card fun a ha => by
    rw [Finset.mem_filter] at ha ⊢
    exact ⟨ha.1, ha.2.2⟩

/-- When only pixel `b` can differ, at most one is changed. -/
theorem changed_le_one {I : Finset ℕ} {b : ℕ} (h : ∀ a ∈ I, a ≠ b → Q a = R a) : changed R Q I ≤ 1 := by
  have hsub : {a ∈ I | Q a ≠ R a} ⊆ {b} := by
    intro a ha
    rw [Finset.mem_filter] at ha
    by_contra hne
    exact ha.2 (h a ha.1 fun hab => hne (Finset.mem_singleton.mpr hab))
  exact (Finset.card_le_card hsub).trans_eq (Finset.card_singleton b)

theorem changed_range_add {m n : ℕ} (h : m ≤ n) :
    changed R Q (range n) = changed R Q (range m) + changed R Q (Ico m n) := by
  rw [changed_eq_sum, changed_eq_sum, changed_eq_sum, Finset.sum_range_add_sum_Ico _ h]

theorem changedTwice_range_add {P : ℕ → Bool} {m n : ℕ} (h : m ≤ n) :
    changedTwice R P Q (range n) = changedTwice R P Q (range m) + changedTwice R P Q (Ico m n) := by
  rw [changedTwice_eq_sum, changedTwice_eq_sum, changedTwice_eq_sum, Finset.sum_range_add_sum_Ico _ h]

theorem diffCnt_process_eq (thr : Thresholds) (s : Tally) :
    (s.process thr Q).diffCnt = 2 * (s.ref 0).toNat + changed s.ref Q (range (frameSize - 3)) := by
  rw [diffCnt_process, changed_eq_sum]

/-- **What `match_cnt` counts**: the differences two addresses behind the previous ones, and up to four times pixel
`0` of the reference. -/
theorem seen_matchBit (n : ℕ) :
    seen (matchBit R D Q) (n + 6) =
      3 * (R 0 && D 0).toNat + (R 0 && D 1).toNat + ∑ a ∈ range n, ((R a ^^ Q a) && D (a + 2)).toNat := by
  induction n with
  | zero =>
    have hlow : ∀ j < 6, matchBit R D Q j = (R 0 && D (j - 4)) := by
      intro j hj
      unfold matchBit
      rw [diffBit_of_lt (by omega)]
    rw [seen_succ (by omega), seen_succ (by omega), seen_succ (by omega), seen_succ (by omega), seen_two,
      hlow _ (by omega), hlow _ (by omega), hlow _ (by omega), hlow _ (by omega)]
    simp
    omega
  | succ n ih =>
    have hbit : matchBit R D Q (n + 6) = ((R n ^^ Q n) && D (n + 2)) := by
      unfold matchBit
      rw [show n + 6 - 2 = n + 4 by omega, diffBit_add_four, show n + 6 - 4 = n + 2 by omega]
    rw [show n + 1 + 6 = n + 6 + 1 by omega, seen_succ (by omega), ih, hbit, Finset.sum_range_succ]
    omega

theorem matchCnt_process (thr : Thresholds) (s : Tally) :
    (s.process thr Q).matchCnt = 3 * (s.ref 0 && s.diff 0).toNat + (s.ref 0 && s.diff 1).toNat +
      ∑ a ∈ range (frameSize - 5), ((s.ref a ^^ Q a) && s.diff (a + 2)).toNat := by
  rw [← seen_matchBit]
  rfl

/-- The difference frame after a processed one: the difference of pixel `a` is at address `a + 2`. -/
theorem diff_process {thr : Thresholds} {s : Tally} {a : ℕ} (ha : a < frameSize - 1) :
    (s.process thr Q).diff a = diffBit s.ref Q (a + 2) := by
  have hfs := frameSize_eq
  exact if_pos (by omega)

theorem diff_process_add_two {thr : Thresholds} {s : Tally} {a : ℕ} (ha : a < frameSize - 3) :
    (s.process thr Q).diff (a + 2) = (s.ref a ^^ Q a) := by
  rw [diff_process (by omega), diffBit_add_four]

/-- Two frames in a row. -/
theorem matchCnt_process_process {P : ℕ → Bool} (thr thr' : Thresholds) (s : Tally) :
    ((s.process thr P).process thr' Q).matchCnt =
      4 * (s.ref 0).toNat + changedTwice s.ref P Q (range (frameSize - 5)) := by
  have hfs := frameSize_eq
  have h0 : (s.process thr P).diff 0 = s.ref 0 := by rw [diff_process (by omega), diffBit_of_lt (by omega)]
  have h1 : (s.process thr P).diff 1 = s.ref 0 := by rw [diff_process (by omega), diffBit_of_lt (by omega)]
  have hsum : ∑ a ∈ range (frameSize - 5), ((s.ref a ^^ Q a) && (s.process thr P).diff (a + 2)).toNat =
      changedTwice s.ref P Q (range (frameSize - 5)) := by
    rw [changedTwice_eq_sum]
    refine Finset.sum_congr rfl fun a ha => ?_
    rw [Finset.mem_range] at ha
    rw [diff_process_add_two (by omega)]
  have href : (s.process thr P).ref = s.ref := rfl
  rw [matchCnt_process, href, h0, h1, hsum, Bool.and_self]
  omega

/-- The first frame after the capture: only a leftover at address `0` can match. -/
theorem Tally.Fresh.matchCnt_process (thr : Thresholds) {s : Tally} (h : s.Fresh) :
    (s.process thr Q).matchCnt = 3 * (s.ref 0 && s.diff 0).toNat := by
  have hfs := frameSize_eq
  have hsum : ∑ a ∈ range (frameSize - 5), ((s.ref a ^^ Q a) && s.diff (a + 2)).toNat = 0 := by
    refine Finset.sum_eq_zero fun a ha => ?_
    rw [Finset.mem_range] at ha
    rw [h.diff (a + 2) (by omega) (by omega), Bool.and_false]
    rfl
  rw [SuspiciousPackage.matchCnt_process, hsum, h.diff 1 (by omega) (by omega), Bool.and_false]
  rfl

theorem seen_of_false (h : ∀ j, b j = false) : seen b c = 0 := by
  unfold seen
  refine Finset.sum_eq_zero ?_
  intro j _
  rw [h]
  rfl

/-- Without a previous difference frame nothing matches. -/
theorem matchCnt_one (thr : Thresholds) (F : ℕ → ℕ → Bool) : (Tally.afterFrames thr F 1).matchCnt = 0 := by
  have hno : ∀ j, matchBit (storedFrame (F 0)) (fun _ => false) (F 1) j = false := fun _ => Bool.and_false _
  have hcnt : (Tally.afterFrames thr F 1).matchCnt =
      seen (matchBit (storedFrame (F 0)) (fun _ => false) (F 1)) (frameSize + 1) := rfl
  rw [hcnt, seen_of_false hno]

/-- So the first two decisions leave the suspicion level at `0`. -/
theorem suspicion_two (thr : Thresholds) (F : ℕ → ℕ → Bool) : (Tally.afterFrames thr F 2).suspicion = 0 := by
  rw [show 2 = 1 + 1 from rfl, Tally.afterFrames_suspicion, Tally.nextSuspicion, if_neg]
  rintro ⟨-, hm⟩
  rw [matchCnt_one] at hm
  omega

/-- With a black pixel `0` of the reference, the spurious differences are stored as a difference of pixel `0` … -/
theorem diff_zero_of_black {thr : Thresholds} {F : ℕ → ℕ → Bool} (h0 : F 0 0 = true) (k : ℕ) :
    (Tally.afterFrames thr F (k + 1)).diff 0 = true := by
  have hfs := frameSize_eq
  show diffFrame (Tally.afterFrames thr F k).ref (Tally.afterFrames thr F k).diff (F (k + 1)) (frameSize + 1) 0 = true
  unfold diffFrame
  rw [if_pos (by omega), diffBit_of_lt (by omega), Tally.afterFrames_ref, storedFrame, if_pos (by omega), h0]

/-- … and match in the next frame: at the lowest thresholds every frame from the second processed one on matches. -/
theorem frameMatch_of_black {thr : Thresholds} {F : ℕ → ℕ → Bool} (h0 : F 0 0 = true) (ho : thr.object = 0)
    (hs : thr.static = 0) (k : ℕ) : (Tally.afterFrames thr F (k + 2)).frameMatch thr := by
  have hfs := frameSize_eq
  have href : (Tally.afterFrames thr F (k + 1)).ref 0 = true := by
    rw [Tally.afterFrames_ref, storedFrame, if_pos (by omega), h0]
  have hdiff : diffBit (Tally.afterFrames thr F (k + 1)).ref (F (k + 2)) 2 = true := by
    rw [diffBit_of_lt (by omega), href]
  have hmatch : matchBit (Tally.afterFrames thr F (k + 1)).ref (Tally.afterFrames thr F (k + 1)).diff (F (k + 2)) 2 =
      true := by
    unfold matchBit
    rw [diffBit_of_lt (by omega), href, diff_zero_of_black h0]
    rfl
  have hpos : ∀ b : ℕ → Bool, b 2 = true → 0 < seen b (frameSize + 1) := by
    intro b hb
    have h3 : seen b 3 = 1 := by rw [seen_succ le_rfl, seen_two, hb]; rfl
    exact h3.symm.trans_le (seen_mono (by omega))
  unfold Tally.frameMatch
  rw [ho, hs]
  exact ⟨hpos _ hdiff, hpos _ hmatch⟩

end Counting

end SuspiciousPackage
