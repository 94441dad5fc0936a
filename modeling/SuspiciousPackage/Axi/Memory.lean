import SuspiciousPackage.Axi.Discipline
import SuspiciousPackage.Sync.Slot

/-!
# Axi.Memory — what a register slave owes its master

The abstract view of a slave: a byte-addressed memory to which the writes handed over so far have been applied in order
(`memory`).  For a master with `Interleaved` writes and reads, `slvRegWren_iff` and `awaddr_of_write` say that each write
is taken by the registers once, under its address; `writes_answered` and `reads_answered` number the responses.
`Interleaved.of_runs`: whether a master is `Interleaved` does not depend on what it reads.
-/

namespace Axi

open Slave Sync

variable {n : ℕ}

/-- A write as it is handed over. -/
structure Write (n : ℕ) where
  addr : BitVec n
  data : BitVec 32
  strb : BitVec 4
deriving DecidableEq, Repr

/-- A memory of bytes after a write: the enabled bytes of the addressed word are replaced. -/
def Write.apply (w : Write n) (mem : ℕ → BitVec 8) (a : ℕ) : BitVec 8 :=
  if a / 4 = w.addr.toNat / 4 ∧ w.strb.getLsbD (a % 4) = true then w.data.extractLsb' (8 * (a % 4)) 8 else mem a

/-- Byte `b` of a word, as a part of it. -/
def byte (x : BitVec 32) (b : ℕ) : BitVec 8 := x.extractLsb' (8 * b) 8

/-- Word `k` of a memory is `x`. -/
def HoldsWord (mem : ℕ → BitVec 8) (k : ℕ) (x : BitVec 32) : Prop := ∀ b < 4, byte x b = mem (4 * k + b)

section Words

variable {mem : ℕ → BitVec 8} {w : Write n} {k : ℕ} {x : BitVec 32}

theorem byte_writeStrobes {strb : BitVec 4} {data : BitVec 32} {b : ℕ} (hb : b < 4) :
    byte (writeStrobes 4 strb data x) b = if strb.getLsbD b = true then byte data b else byte x b := by
  apply BitVec.eq_of_getLsbD_eq
  intro i hi
  have hdiv : (8 * b + i) / 8 = b := by omega
  unfold byte
  rw [apply_ite (fun y => BitVec.getLsbD y i)]
  simp only [BitVec.getLsbD_extractLsb', hi, decide_true, Bool.true_and]
  rw [getLsbD_writeStrobes (by omega), hdiv]
  simp [hb]

/-- A write to the word changes it as the strobes say … -/
theorem HoldsWord.write (h : HoldsWord mem k x) (hk : w.addr.toNat / 4 = k) :
    HoldsWord (w.apply mem) k (writeStrobes 4 w.strb w.data x) := by
  intro b hb
  rw [byte_writeStrobes hb, h b hb]
  unfold Write.apply
  rw [show (4 * k + b) / 4 = k by omega, show (4 * k + b) % 4 = b by omega, hk]
  simp only [true_and]
  rfl

/-- … and a write to another word leaves it alone. -/
theorem HoldsWord.write_of_ne (h : HoldsWord mem k x) (hk : w.addr.toNat / 4 ≠ k) : HoldsWord (w.apply mem) k x := by
  intro b hb
  rw [h b hb]
  unfold Write.apply
  rw [if_neg]
  rintro ⟨hw, -⟩
  omega

end Words

/-! ## The writes handed over -/

section Trace

variable (m : ℕ → Master n) (s : ℕ → Slave n)

/-- The write on the channels in cycle `t`. -/
def offered (t : ℕ) : Write n := ⟨(m t).awaddr, (m t).wdata, (m t).wstrb⟩

/-- The writes handed over before cycle `t`, in order. -/
def writes : ℕ → List (Write n)
  | 0 => []
  | t + 1 => if AwFires m s t ∧ WFires m s t then writes t ++ [offered m t] else writes t

/-- The memory they leave, from the contents `mem`. -/
def memory (mem : ℕ → BitVec 8) (t : ℕ) : ℕ → BitVec 8 := (writes m s t).foldl (fun mem w => w.apply mem) mem

end Trace

variable {m : ℕ → Master n} {s : ℕ → Slave n} {x : ℕ → BitVec 32} {mem : ℕ → BitVec 8} {t : ℕ}

theorem memory_of_write (h : AwFires m s t ∧ WFires m s t) :
    memory m s mem (t + 1) = (offered m t).apply (memory m s mem t) := by
  have hw : writes m s (t + 1) = writes m s t ++ [offered m t] := if_pos h
  unfold memory
  rw [hw, List.foldl_append, List.foldl_cons, List.foldl_nil]

theorem memory_of_not_write (h : ¬ (AwFires m s t ∧ WFires m s t)) : memory m s mem (t + 1) = memory m s mem t := by
  have hw : writes m s (t + 1) = writes m s t := if_neg h
  unfold memory
  rw [hw]

/-- Address and data are taken in the same cycle. -/
theorem awFires_iff_wFires (hd : Interleaved m s) (hr : Runs m s x) (t : ℕ) : AwFires m s t ↔ WFires m s t := by
  obtain ⟨⟨st, hs, ht⟩, -⟩ := tracked hd hr t
  cases st with
  | idle =>
    refine iff_of_false ?_ ?_
    · exact fun h => absurd (hs.1.symm.trans h.2) (by simp)
    · exact fun h => absurd (hs.2.1.symm.trans h.2) (by simp)
  | accepted a => exact iff_of_true ⟨ht.1, hs.1⟩ ⟨ht.2.1, hs.2.1⟩
  | responding =>
    refine iff_of_false ?_ ?_
    · exact fun h => absurd (hs.1.symm.trans h.2) (by simp)
    · exact fun h => absurd (hs.2.1.symm.trans h.2) (by simp)

/-- **A write takes effect in the cycle in which it is handed over**, and in no other. -/
theorem slvRegWren_iff : (s t).slvRegWren (m t) = true ↔ AwFires m s t ∧ WFires m s t := by
  unfold slvRegWren AwFires WFires
  simp only [Bool.and_eq_true]
  tauto

/-- The latched address is the one handed over. -/
theorem awaddr_of_write (hd : Interleaved m s) (hr : Runs m s x) (h : AwFires m s t) :
    (s t).awaddr = (m t).awaddr := (accepted_of_awFires hd hr h).2.2.2.2

/-- The write responses. -/
theorem writes_answered (hd : Interleaved m s) (hr : Runs m s x) :
    Answered (AwFires m s) (fun t => (s t).bvalid) (fun t => (m t).bready) (fun _ => ()) fun _ => () := by
  apply Slot.answered
  refine ⟨?_, ?_, ?_, ?_⟩
  · rw [hr.zero]
    rfl
  · intro t h
    exact (accepted_of_awFires hd hr h).2.2.2.1
  · intro t h
    have hw := (awFires_iff_wFires hd hr t).mp h
    refine ⟨?_, rfl⟩
    rw [hr.succ]
    exact (write_done (accepted_of_awFires hd hr h) h.1 hw.1).2.2.2
  · intro t h
    have hno : ((s t).awready && (m t).awvalid) = false := by
      by_contra hv
      rw [Bool.not_eq_false, Bool.and_eq_true] at hv
      exact h ⟨hv.2, hv.1⟩
    refine ⟨?_, rfl⟩
    rw [hr.succ]
    cases hb : (s t).bvalid <;> cases hr : (m t).bready <;> simp [clock, hno, hb, hr]

/-- **The read responses**: the beat of a read carries the word selected in the cycle in which its address was handed
over, and that address was latched. -/
theorem reads_answered (hd : Interleaved m s) (hr : Runs m s x) :
    Answered (ArFires m s) (fun t => (s t).rvalid) (fun t => (m t).rready) (fun t => (s t).rdata) x ∧
      ∀ t, ArFires m s t → (s t).araddr = (m t).araddr := by
  have hacc : ∀ t, ArFires m s t → (s t).InRead (.accepted (m t).araddr) := by
    intro t h
    obtain ⟨-, st, hs, ht⟩ := tracked hd hr t
    cases st with
    | idle => exact absurd (hs.1.symm.trans h.2) (by simp)
    | accepted a => exact ht.2.1 ▸ hs
    | responding => exact absurd (hs.1.symm.trans h.2) (by simp)
  refine ⟨Slot.answered ⟨?_, ?_, ?_, ?_⟩, fun t h => (hacc t h).2.2⟩
  · rw [hr.zero]
    rfl
  · intro t h
    exact (hacc t h).2.1
  · intro t h
    obtain ⟨h1, h2⟩ := read_done (x := x t) (hacc t h) h.1
    rw [hr.succ]
    exact ⟨h1.2, h2⟩
  · intro t h
    have hno : ((s t).arready && (m t).arvalid) = false := by
      by_contra hv
      rw [Bool.not_eq_false, Bool.and_eq_true] at hv
      exact h ⟨hv.2, hv.1⟩
    rw [hr.succ]
    cases hb : (s t).rvalid <;> cases hr : (m t).rready <;> simp [clock, slvRegRden, hno, hb, hr]

/-! ## The handshakes do not depend on the words read -/

/-- The channels but for the read data. -/
def Slave.withoutData (s : Slave n) : Slave n := { s with rdata := 0 }

theorem withoutData_clock (s : Slave n) (i : Master n) (y : BitVec 32) :
    (s.clock true i y).withoutData = (s.withoutData.clock true i 0).withoutData := rfl

section TwoRuns

variable {s' : ℕ → Slave n} {x' : ℕ → BitVec 32} (hr : Runs m s x) (hr' : Runs m s' x')
include hr hr'

theorem withoutData_runs (t : ℕ) : (s t).withoutData = (s' t).withoutData := by
  induction t with
  | zero => rw [hr.zero, hr'.zero]
  | succ t ih => rw [hr.succ, hr'.succ, withoutData_clock, ih, ← withoutData_clock]

theorem channels_runs (t : ℕ) :
    (s t).awready = (s' t).awready ∧ (s t).wready = (s' t).wready ∧ (s t).arready = (s' t).arready ∧
    (s t).rvalid = (s' t).rvalid := by
  have h := withoutData_runs hr hr' t
  unfold Slave.withoutData at h
  injection h with haw _ _ hw _ har _ hrv _
  exact ⟨haw, hw, har, hrv⟩

/-- Each handshake of the one run is one of the other. -/
theorem fires_runs (t : ℕ) :
    (AwFires m s t ↔ AwFires m s' t) ∧ (WFires m s t ↔ WFires m s' t) ∧ (ArFires m s t ↔ ArFires m s' t) ∧
    (RFires m s t ↔ RFires m s' t) := by
  obtain ⟨haw, hw, har, hrv⟩ := channels_runs hr hr' t
  unfold AwFires WFires ArFires RFires
  rw [haw, hw, har, hrv]
  exact ⟨Iff.rfl, Iff.rfl, Iff.rfl, Iff.rfl⟩

theorem Interleaved.of_runs (hd : Interleaved m s) : Interleaved m s' := by
  have h := channels_runs hr hr'
  refine ⟨?_, ?_, ?_, ?_⟩
  · intro t hv hlow
    exact hd.awHold t hv ((h t).1.trans hlow)
  · intro t hv hlow
    exact hd.wHold t hv ((h t).2.1.trans hlow)
  · intro t hv hlow
    exact hd.arHold t hv ((h t).2.2.1.trans hlow)
  · intro t hv
    have har : Nat.count (ArFires m s) t = Nat.count (ArFires m s') t :=
      le_antisymm (Nat.count_mono_left fun u _ => (fires_runs hr hr' u).2.2.1.mp)
        (Nat.count_mono_left fun u _ => (fires_runs hr hr' u).2.2.1.mpr)
    have hrf : Nat.count (RFires m s) (t + 1) = Nat.count (RFires m s') (t + 1) :=
      le_antisymm (Nat.count_mono_left fun u _ => (fires_runs hr hr' u).2.2.2.mp)
        (Nat.count_mono_left fun u _ => (fires_runs hr hr' u).2.2.2.mpr)
    rw [← har, ← hrf]
    exact hd.arOnce t hv

end TwoRuns

end Axi
