import SuspiciousPackage.Alert.Evidence

/-!
# Alert.Coherence — a transfer streams one coherent camera frame

The reader addresses cell `a` of the immediate frame buffer in cycle `a` of the transfer.  A camera that overwrites the
buffer from address `0` on, at most one cell per cycle, is at address `a` in that cycle at the earliest, and the buffer
reads first; so it never gets ahead of the reader (`mem_of_writesInOrder`).
-/

namespace SuspiciousPackage

open Sync Finset

namespace Ov7670Top

/-- During the transfer from cycle `t₀` on the camera writes the addresses `0`, `1`, `2`, … in that order. -/
def WritesInOrder (ins : ℕ → In) (t₀ : ℕ) : Prop :=
  ∀ z, t₀ ≤ z → z < t₀ + (frameSize + 2) → (ins z).captureWren = true →
    (ins z).captureAddr.toNat = #{y ∈ Ico t₀ z | (ins y).captureWren = true}

/-- A memory `B` after the first `c` beats from cycle `t₀` on have been written to it. -/
def streamed (r : ℕ → Ov7670Top) (t₀ : ℕ) (B : ℕ → BitVec 16) : ℕ → ℕ → BitVec 16
  | 0 => B
  | c + 1 => Function.update (streamed r t₀ B c) (r (t₀ + c)).objDetAddr.toNat (r (t₀ + c)).objDetPixel

/-- The beats of the transfer from cycle `t₀` on carry the frame `M`. -/
structure Streams (r : ℕ → Ov7670Top) (t₀ : ℕ) (M : ℕ → BitVec 16) : Prop where
  wren : ∀ c < frameSize + 2, (r (t₀ + c)).objDetWren = true
  ended : (r (t₀ + (frameSize + 2))).objDetWren = false
  /-- The addresses do not decrease and cover the frame. -/
  mono : ∀ c c', c ≤ c' → c' < frameSize + 2 → (r (t₀ + c)).objDetAddr.toNat ≤ (r (t₀ + c')).objDetAddr.toNat
  lt : ∀ c < frameSize + 2, (r (t₀ + c)).objDetAddr.toNat < frameSize
  covers : ∀ a < frameSize, ∃ c < frameSize + 2, (r (t₀ + c)).objDetAddr.toNat = a
  /-- The last beat of an address carries its pixel. -/
  last : ∀ c < frameSize + 2,
    (∀ c', c < c' → c' < frameSize + 2 → (r (t₀ + c')).objDetAddr.toNat ≠ (r (t₀ + c)).objDetAddr.toNat) →
    (r (t₀ + c)).objDetPixel = M (r (t₀ + c)).objDetAddr.toNat
  memory : ∀ B, ∀ a < frameSize, streamed r t₀ B (frameSize + 2) a = M a

section Run

variable {s₀ : Ov7670Top} {ins : ℕ → In} {t₀ : ℕ}

/-- **The camera does not overtake the reader**: in cycle `c` the cells from `c` on are as when the transfer began. -/
theorem mem_of_writesInOrder (hw : WritesInOrder ins t₀) {a c : ℕ} (hc : c ≤ a) (ha : a < frameSize) :
    (runFrom s₀ ins (t₀ + c)).uFrameBuffer.mem a = (runFrom s₀ ins t₀).uFrameBuffer.mem a := by
  induction c with
  | zero => rfl
  | succ c ih =>
    rw [← ih (by omega)]
    refine DualRam.clock_mem_of_ne fun hwren => ?_
    have haddr := hw (t₀ + c) (by omega) (by omega) hwren
    have hle : #{y ∈ Ico t₀ (t₀ + c) | (ins y).captureWren = true} ≤ t₀ + c - t₀ :=
      (Finset.card_filter_le _ _).trans_eq (Nat.card_Ico _ _)
    show a ≠ (ins (t₀ + c)).captureAddr.toNat
    omega

theorem pixelAt_of_writesInOrder (h : s₀.system.Sound) (hb : (runFrom s₀ ins t₀).system.beat = some 0)
    (hw : WritesInOrder ins t₀) {a : ℕ} (ha : a < frameSize) :
    pixelAt (runFrom s₀ ins) t₀ a = (runFrom s₀ ins t₀).uFrameBuffer.mem a := by
  rw [pixelAt_eq h hb ha]
  exact mem_of_writesInOrder hw le_rfl ha

/-- After cycle `c` the memory holds the pixels presented so far. -/
theorem streamed_eq (h : s₀.system.Sound) (hb : (runFrom s₀ ins t₀).system.beat = some 0) (B : ℕ → BitVec 16) {a c : ℕ}
    (hc : c ≤ frameSize + 2) (hac : a + 2 < c) :
    streamed (runFrom s₀ ins) t₀ B c a = pixelAt (runFrom s₀ ins) t₀ a := by
  induction c with
  | zero => omega
  | succ c ih =>
    have haddr := objDetAddr_run h (beats_run h hb (show c ≤ frameSize + 1 by omega))
    unfold streamed
    rw [haddr]
    by_cases ha : c = a + 2
    · subst ha
      rw [Nat.add_sub_cancel, Function.update_self]
      rfl
    · rw [Function.update_of_ne (by omega)]
      exact ih (by omega) (by omega)

/-- **A transfer streams one coherent camera frame.**  From reset, whatever the two buffers hold: for the transfer that
begins in cycle `t₀`, if during it the camera overwrites the buffer only at the addresses `0`, `1`, `2`, … in that
order, the beats carry the contents of the buffer in cycle `t₀`. -/
theorem transfer_coherent (s : System) (i : System.In) (fb db : DualRam (BitVec 16)) (ins : ℕ → In) (r : ℕ → Ov7670Top)
    (hr : r = runFrom ⟨s.clock false i, fb, db⟩ ins) (t₀ : ℕ) (hb : System.Begins (systems r) t₀)
    (hw : WritesInOrder ins t₀) : Streams r t₀ (r t₀).uFrameBuffer.mem := by
  subst hr
  have hfs := frameSize_eq
  have h : (s.clock false i).Sound := System.sound_reset s i
  have hbeat := (begins_run h rfl).mp hb
  have hbeats := fun c (hc : c < frameSize + 2) => beats_run h hbeat (show c ≤ frameSize + 1 by omega)
  have haddr := fun c (hc : c < frameSize + 2) => objDetAddr_run h (hbeats c hc)
  refine ⟨fun c hc => objDetWren_beat h (hbeats c hc), ?_, fun c c' hcc hc' => ?_, fun c hc => ?_, fun a ha => ?_,
    fun c hc hlast => ?_, fun B a ha => ?_⟩
  · rw [system_eq] at hbeat
    rw [objDetWren_run h, system_eq, ← Nat.add_assoc, System.transfer_ends h hbeat]
    rfl
  · rw [haddr c (by omega), haddr c' hc']
    omega
  · rw [haddr c hc]
    omega
  · refine ⟨a + 2, by omega, ?_⟩
    rw [haddr _ (by omega)]
    omega
  · -- cycle `2` shows address `0` again
    have h2 : 2 ≤ c := by
      by_contra hlt
      refine hlast 2 (by omega) (by omega) ?_
      rw [haddr 2 (by omega), haddr c hc]
      omega
    obtain ⟨a, rfl⟩ := Nat.exists_eq_add_of_le' h2
    rw [haddr _ hc, Nat.add_sub_cancel]
    exact pixelAt_of_writesInOrder h hbeat hw (by omega)
  · rw [streamed_eq h hbeat B le_rfl (by omega)]
    exact pixelAt_of_writesInOrder h hbeat hw ha

/-! ### A camera right behind the reader -/

/-- During the first transfer of the dark scene the camera writes a cell in every cycle. -/
def chasedScene (t : ℕ) : In :=
  if 3 ≤ t ∧ t < 3 + (frameSize + 2) then
    { darkScene 0 t with captureWren := true, captureAddr := BitVec.ofNat 17 (t - 3), rgbData16 := 7 }
  else darkScene 0 t

theorem chasedScene_of_lt {t : ℕ} (h : 3 ≤ t ∧ t < 3 + (frameSize + 2)) :
    (chasedScene t).captureWren = true ∧ (chasedScene t).captureAddr = BitVec.ofNat 17 (t - 3) := by
  unfold chasedScene
  rw [if_pos h]
  exact ⟨rfl, rfl⟩

theorem writesInOrder_chasedScene : WritesInOrder chasedScene 3 := by
  have hfs := frameSize_eq
  intro z h1 h2 _
  have hall : {y ∈ Ico 3 z | (chasedScene y).captureWren = true} = Ico 3 z := by
    refine Finset.filter_true_of_mem fun y hy => ?_
    rw [mem_Ico] at hy
    exact (chasedScene_of_lt ⟨hy.1, by omega⟩).1
  rw [hall, Nat.card_Ico, (chasedScene_of_lt ⟨h1, h2⟩).2, BitVec.toNat_ofNat]
  exact Nat.mod_eq_of_lt (by omega)

theorem transfer_coherent_chased :
    Streams (runFrom darkStart chasedScene) 3 (runFrom darkStart chasedScene 3).uFrameBuffer.mem := by
  have hpre : runFrom darkStart chasedScene 3 = darkRun 0 3 := run_congr fun u hu => if_neg (by omega)
  refine transfer_coherent System.init (System.backToBack (darkWords 0) ⟨0, 0, 1⟩ 0) ⟨fun _ => 1, 0⟩ ⟨fun _ => 0, 0⟩
    chasedScene _ (by rw [System.clock_reset_init]; rfl) 3 ?_ writesInOrder_chasedScene
  rw [begins_run System.sound_init rfl, hpre, darkRun_system]
  exact System.beat_beginCycle _ _ 0

end Run

end Ov7670Top

end SuspiciousPackage
