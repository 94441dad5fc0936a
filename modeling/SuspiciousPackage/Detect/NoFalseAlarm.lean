import SuspiciousPackage.Detect.IdleTime

/-!
# Detect.NoFalseAlarm — alarms on an unchanging scene

When every frame is the image `F`, each processed frame counts exactly the two spurious differences of the cycles `2`
and `3`, where the reference's pixel `0` is compared with nothing: `2 * F 0` in all (`seen_still`).  So there is no
false alarm iff pixel `0` is white or the object threshold is at least `2` (`alarmFree_iff`).
-/

namespace SuspiciousPackage

open Sync

section Still

variable {F : ℕ → Bool} {thr : Thresholds} {c : ℕ}

/-- The differences of an unchanged frame. -/
theorem diffBit_still {j : ℕ} (h4 : 4 ≤ j) (hj : j ≤ frameSize) : diffBit (storedFrame F) F j = false := by
  have hfs := frameSize_eq
  obtain ⟨a, rfl⟩ := Nat.exists_eq_add_of_le' h4
  rw [diffBit_add_four, storedFrame, if_pos (by omega), Bool.xor_self]

theorem seen_still_four : seen (diffBit (storedFrame F) F) 4 = 2 * (F 0).toNat := by
  have h0 : storedFrame F 0 = F 0 := if_pos (by rw [frameSize_eq]; omega)
  rw [seen_diffBit 0, h0]
  rfl

/-- **The two spurious differences.** -/
theorem seen_still (h4 : 4 ≤ c) (hc : c ≤ frameSize + 1) :
    seen (diffBit (storedFrame F) F) c = 2 * (F 0).toNat := by
  induction c, h4 using Nat.le_induction with
  | base => exact seen_still_four
  | succ c h4 ih =>
    rw [seen_succ (by omega), ih (by omega), diffBit_still h4 (by omega)]
    rfl

theorem seen_still_le (hc : c ≤ frameSize + 1) : seen (diffBit (storedFrame F) F) c ≤ 2 * (F 0).toNat := by
  rcases Nat.le_total 4 c with h | h
  · exact (seen_still h hc).le
  · exact (seen_mono h).trans_eq seen_still_four

/-- On an unchanging scene the threshold is never passed and the suspicion level stays `0`. -/
theorem afterFrames_still (hD : 2 * (F 0).toNat ≤ thr.object.toNat) (k : ℕ) :
    (Tally.afterFrames thr (fun _ => F) k).diffCnt ≤ 2 * (F 0).toNat ∧
      (Tally.afterFrames thr (fun _ => F) k).suspicion = 0 := by
  induction k with
  | zero => exact ⟨Nat.zero_le _, rfl⟩
  | succ k ih =>
    obtain ⟨hle, -⟩ := ih
    have hno : ¬ (Tally.afterFrames thr (fun _ => F) k).frameMatch thr := fun hm => absurd hm.1 (by omega)
    refine ⟨?_, if_neg hno⟩
    show seen (diffBit (Tally.afterFrames thr (fun _ => F) k).ref F) (frameSize + 1) ≤ _
    rw [Tally.afterFrames_ref]
    exact seen_still_le le_rfl

end Still

namespace System

theorem objectDetected_eq {s : System} {i : In} :
    s.objectDetected i = decide (i.detectionThres.toNat < s.datapath.diffCnt.toNat) := by
  show (s.datapath.settle (s.controlOut i).resetnDatapath).objectDetected _ = _
  cases (s.controlOut i).resetnDatapath <;> rfl

theorem objectSusp_eq {s : System} {i : In} :
    s.objectSusp i = decide (s.datapath.suspicion.toNat = i.suspicionThres.toNat) := by
  show (s.datapath.settle (s.controlOut i).resetnDatapath).suspicionDetected _ = _
  cases (s.controlOut i).resetnDatapath <;> rfl

/-- Without a reference the counter and the suspicion level are held at `0`. -/
theorem cleared_of_not_initDone {s₀ : System} {ins : ℕ → In}
    (h0 : s₀.datapath.diffCnt = 0 ∧ s₀.datapath.suspicion = 0) {t : ℕ} (hd : (runFrom s₀ ins t).initDone = false) :
    (runFrom s₀ ins t).datapath.diffCnt = 0 ∧ (runFrom s₀ ins t).datapath.suspicion = 0 := by
  rcases t with _ | t
  · exact h0
  · have hin : ((runFrom s₀ ins t).datapathIn (ins t)).initDone = false := initDone_low (Nat.le_succ t) hd
    have hor : ((runFrom s₀ ins t).datapathIn (ins t)).resetn = false ∨
        ((runFrom s₀ ins t).datapathIn (ins t)).initDone = false := Or.inr hin
    exact ⟨if_pos hor, if_pos hor⟩

/-- No run on the unchanging scene `F` raises an alarm: from power-up, with the start bit raised in `WAIT_START` with no
transfer in progress and fixed thresholds `thr`, if every transfer from the reference on has the pixels `F`, then
neither `object_detected` nor `object_susp` is ever high. -/
def AlarmFree (F : ℕ → Bool) (thr : Thresholds) : Prop :=
  ∀ ins : ℕ → In, StartsIdle ins (runFrom init ins) → (∀ t, thresholds (ins t) = thr) →
    Delivers ins (runFrom init ins) (fun _ => F) →
    ∀ t, (runFrom init ins t).objectDetected (ins t) = false ∧ (runFrom init ins t).objectSusp (ins t) = false

section Still

variable {ins : ℕ → In} {F : ℕ → Bool} {thr : Thresholds}

/-- The counter and the suspicion level in every cycle of a run on an unchanging scene. -/
theorem still_le (hidle : StartsIdle ins (runFrom init ins)) (hthr : ∀ t, thresholds (ins t) = thr)
    (hF : Delivers ins (runFrom init ins) fun _ => F) (hD : 2 * (F 0).toNat ≤ thr.object.toNat) (t : ℕ) :
    (runFrom init ins t).datapath.diffCnt.toNat ≤ 2 * (F 0).toNat ∧
      (runFrom init ins t).datapath.suspicion = 0 := by
  obtain ⟨hinv, p, hp⟩ := sound_runFrom sound_init ins t
  have hfol := followed hidle hthr hF t p hp
  have hrested : ∀ k, Rested (Tally.afterFrames thr (fun _ => F) k) (runFrom init ins t) →
      (runFrom init ins t).datapath.diffCnt.toNat ≤ 2 * (F 0).toNat ∧
        (runFrom init ins t).datapath.suspicion = 0 := by
    intro k hS
    obtain ⟨h1, h2⟩ := afterFrames_still hD k
    exact ⟨hS.diffCnt.trans_le h1, hS.suspicion.trans h2⟩
  cases p with
  | off => exact (cleared_of_not_initDone ⟨rfl, rfl⟩ hp.2).imp (fun h => by simp [h]) id
  | wait b => exact (cleared_of_not_initDone ⟨rfl, rfl⟩ hp.2.1).imp (fun h => by simp [h]) id
  | capture c => exact (cleared_of_not_initDone ⟨rfl, rfl⟩ hp.2.1).imp (fun h => by simp [h]) id
  | rest => exact hrested _ hfol.2.2
  | lead => exact hrested _ hfol.2.2.toRested
  | start =>
    obtain ⟨-, -, -, -, -, hS⟩ := hfol
    exact hrested _ hS.toRested
  | proc c =>
    obtain ⟨-, k, -, -, -, -, -, hS⟩ := hfol
    obtain ⟨h1, -⟩ := afterFrames_still hD k
    have hno : ¬ (Tally.afterFrames thr (fun _ => F) k).frameMatch thr := fun hm => absurd hm.1 (by omega)
    refine ⟨?_, hS.suspicion.trans (if_neg hno)⟩
    rw [hS.diffCnt, Tally.afterFrames_ref]
    exact seen_still_le (Downsampler.beat_le hinv hp.2.2.1)

/-! ### A run on the image `F` -/

/-- The word that converts to the pixel value `b` at the threshold `0x70`. -/
def bwWord (b : Bool) : BitVec 16 := if b then 0 else 0xFFF

theorem suspPixelIn_bwWord (b : Bool) : suspPixelIn 0x70 (bwWord b) = b := by
  cases b <;> decide

/-- Back-to-back transfers of the image `F`. -/
def stillFrames (F : ℕ → Bool) (thr : Thresholds) : ℕ → In :=
  backToBack (fun t => bwWord (F ((t - 4) % (frameSize + 3)))) thr

theorem delivers_stillFrames (F : ℕ → Bool) (thr : Thresholds) :
    Delivers (stillFrames F thr) (runFrom init (stillFrames F thr)) fun _ => F := by
  intro k t hk a ha
  have hb := (begins_iff sound_init rfl).mp hk.1.1
  obtain ⟨n, rfl⟩ := beginCycle_of_beat _ _ hb
  rw [frameAt_eq sound_init hb ha]
  show suspPixelIn 0x70 (bwWord (F ((beginCycle n + a + 1 - 4) % (frameSize + 3)))) = F a
  rw [suspPixelIn_bwWord, show beginCycle n + a + 1 - 4 = a + n * (frameSize + 3) by unfold beginCycle; omega,
    Nat.add_mul_mod_self_right, Nat.mod_eq_of_lt (by omega)]

/-- With a black pixel `0`, two differences are counted by cycle `4` of the first processed transfer. -/
theorem stillFrames_diffCnt (h0 : F 0 = true) :
    (runFrom init (stillFrames F thr) (beginCycle 1 + 4)).datapath.diffCnt.toNat = 2 := by
  have hidle : StartsIdle (stillFrames F thr) (runFrom init (stillFrames F thr)) :=
    startsIdle_of_one (fun _ => rfl) ⟨rfl, rfl⟩
  have hlead := lead_backToBack (fun t => bwWord (F ((t - 4) % (frameSize + 3)))) thr (le_refl 1)
  have hproc := (proc_phases sound_init hlead).2 2 (by rw [frameSize_eq]; omega)
  have hthr : ∀ t, thresholds (stillFrames F thr t) = thr := fun _ => rfl
  obtain ⟨-, k, -, -, -, -, -, hS⟩ := followed hidle hthr (delivers_stillFrames F thr) _ _ hproc
  refine hS.diffCnt.trans ?_
  rw [Tally.afterFrames_ref, seen_still_four, h0]
  rfl

end Still

/-- **When an unchanging scene raises no alarm**: iff its pixel `0` is white or the object threshold is at least `2`. -/
theorem alarmFree_iff (F : ℕ → Bool) (thr : Thresholds) (hT : 1 ≤ thr.suspicion.toNat) :
    AlarmFree F thr ↔ F 0 = false ∨ 2 ≤ thr.object.toNat := by
  constructor
  · intro h
    by_contra hno
    obtain ⟨h0, hD⟩ := not_or.mp hno
    rw [Bool.not_eq_false] at h0
    have hidle : StartsIdle (stillFrames F thr) (runFrom init (stillFrames F thr)) :=
      startsIdle_of_one (fun _ => rfl) ⟨rfl, rfl⟩
    have hdet := (h _ hidle (fun _ => rfl) (delivers_stillFrames F thr) (beginCycle 1 + 4)).1
    rw [objectDetected_eq, stillFrames_diffCnt h0, decide_eq_false_iff_not] at hdet
    exact hdet (not_le.mp hD)
  · intro h ins hidle hthr hF t
    have hle : 2 * (F 0).toNat ≤ thr.object.toNat := by
      rcases h with h0 | hD
      · rw [h0]
        exact Nat.zero_le _
      · have := Bool.toNat_le (F 0)
        omega
    obtain ⟨hcnt, hsusp⟩ := still_le hidle hthr hF hle t
    have hobj : (ins t).detectionThres = thr.object := congrArg Thresholds.object (hthr t)
    have hst : (ins t).suspicionThres = thr.suspicion := congrArg Thresholds.suspicion (hthr t)
    rw [objectDetected_eq, objectSusp_eq, hobj, hst, hsusp]
    refine ⟨decide_eq_false (by omega), decide_eq_false ?_⟩
    simp only [BitVec.ofNat_eq_ofNat, BitVec.toNat_ofNat, Nat.zero_mod]
    omega

/-- A black scene with the object threshold `2`. -/
theorem alarmFree_iff_black : AlarmFree (fun _ => true) ⟨2, 0, 1⟩ :=
  (alarmFree_iff (fun _ => true) ⟨2, 0, 1⟩ (by decide)).mpr (Or.inr (by decide))

/-- The black scene at thresholds `0`, with the suspicion threshold `1`, raises `object_detected`. -/
theorem alarm_black : ¬ AlarmFree (fun _ => true) ⟨0, 0, 1⟩ := by
  intro h
  have hidle : StartsIdle (stillFrames (fun _ => true) ⟨0, 0, 1⟩)
      (runFrom init (stillFrames (fun _ => true) ⟨0, 0, 1⟩)) := startsIdle_of_one (fun _ => rfl) ⟨rfl, rfl⟩
  have hdet := (h _ hidle (fun _ => rfl) (delivers_stillFrames _ _) (beginCycle 1 + 4)).1
  rw [objectDetected_eq, stillFrames_diffCnt rfl] at hdet
  exact absurd hdet (by decide)

end System

end SuspiciousPackage
