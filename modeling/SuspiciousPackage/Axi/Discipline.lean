import SuspiciousPackage.Axi.Stages
import SuspiciousPackage.Sync.Run

/-!
# Axi.Discipline — the rules a master keeps

`Disciplined m s` says that a master holds its valid signals until they are ready and has at most one transaction
outstanding, counting handshakes along the trace; `Interleaved m s` allows writes during a read.  `tracked`: in every
cycle the stages of the slave agree with these counts.  From it `beat_of_starts`: a read first asserted in cycle `q` is
accepted in `q + 1` and answered by a single beat from `q + 2` on, which carries the word selected in cycle `q + 1`.
-/

namespace Axi

open Slave

variable {n : ℕ}

section Handshakes

variable (m : ℕ → Master n) (s : ℕ → Slave n)

def AwFires (t : ℕ) : Prop := (m t).awvalid = true ∧ (s t).awready = true

def WFires (t : ℕ) : Prop := (m t).wvalid = true ∧ (s t).wready = true

def BFires (t : ℕ) : Prop := (s t).bvalid = true ∧ (m t).bready = true

def ArFires (t : ℕ) : Prop := (m t).arvalid = true ∧ (s t).arready = true

def RFires (t : ℕ) : Prop := (s t).rvalid = true ∧ (m t).rready = true

instance : DecidablePred (AwFires m s) := fun _ => inferInstanceAs (Decidable (_ ∧ _))

instance : DecidablePred (WFires m s) := fun _ => inferInstanceAs (Decidable (_ ∧ _))

instance : DecidablePred (BFires m s) := fun _ => inferInstanceAs (Decidable (_ ∧ _))

instance : DecidablePred (ArFires m s) := fun _ => inferInstanceAs (Decidable (_ ∧ _))

instance : DecidablePred (RFires m s) := fun _ => inferInstanceAs (Decidable (_ ∧ _))

/-- The master holds VALID until READY and has at most one transaction outstanding.  A transaction is over with the
handshake of its response, so the next one may begin in the same cycle: `count (BFires m s) (t + 1)` counts a handshake
in cycle `t`. -/
structure Disciplined : Prop where
  awHold : ∀ t, (m t).awvalid = true → (s t).awready = false →
    (m (t + 1)).awvalid = true ∧ (m (t + 1)).awaddr = (m t).awaddr
  wHold : ∀ t, (m t).wvalid = true → (s t).wready = false →
    (m (t + 1)).wvalid = true ∧ (m (t + 1)).wdata = (m t).wdata ∧ (m (t + 1)).wstrb = (m t).wstrb
  arHold : ∀ t, (m t).arvalid = true → (s t).arready = false →
    (m (t + 1)).arvalid = true ∧ (m (t + 1)).araddr = (m t).araddr
  /-- A new write waits for the response to the last one. -/
  awOnce : ∀ t, (m t).awvalid = true → Nat.count (AwFires m s) t = Nat.count (BFires m s) (t + 1)
  wOnce : ∀ t, (m t).wvalid = true → Nat.count (WFires m s) t = Nat.count (BFires m s) (t + 1)
  /-- A new read waits for the response to the last one. -/
  arOnce : ∀ t, (m t).arvalid = true → Nat.count (ArFires m s) t = Nat.count (RFires m s) (t + 1)
  /-- No read is outstanding during a write. -/
  writeAlone : ∀ t, (m t).awvalid = true ∨ (m t).wvalid = true →
    (m t).arvalid = false ∧ Nat.count (ArFires m s) t = Nat.count (RFires m s) (t + 1)
  /-- No write is outstanding during a read. -/
  readAlone : ∀ t, (m t).arvalid = true → (m t).awvalid = false ∧ (m t).wvalid = false ∧
    Nat.count (AwFires m s) t = Nat.count (BFires m s) (t + 1) ∧
    Nat.count (WFires m s) t = Nat.count (BFires m s) (t + 1)

/-- The master holds VALID until READY and has at most one read outstanding, its writes and reads interleaved in any way.
Nothing is asked of the number of writes: the slave itself accepts the next one after the response to the last. -/
structure Interleaved : Prop where
  awHold : ∀ t, (m t).awvalid = true → (s t).awready = false →
    (m (t + 1)).awvalid = true ∧ (m (t + 1)).awaddr = (m t).awaddr
  wHold : ∀ t, (m t).wvalid = true → (s t).wready = false →
    (m (t + 1)).wvalid = true ∧ (m (t + 1)).wdata = (m t).wdata ∧ (m (t + 1)).wstrb = (m t).wstrb
  arHold : ∀ t, (m t).arvalid = true → (s t).arready = false →
    (m (t + 1)).arvalid = true ∧ (m (t + 1)).araddr = (m t).araddr
  arOnce : ∀ t, (m t).arvalid = true → Nat.count (ArFires m s) t = Nat.count (RFires m s) (t + 1)

/-- A read is first asserted in cycle `q`. -/
def Starts (q : ℕ) : Prop :=
  (m q).arvalid = true ∧ ∀ u, u + 1 = q → (m u).arvalid = false ∨ ArFires m s u

/-- The slave runs from reset, with `x t` the word selected for reading in cycle `t`. -/
structure Runs (x : ℕ → BitVec 32) : Prop where
  zero : s 0 = init
  succ : ∀ t, s (t + 1) = (s t).clock true (m t) (x t)

/-- The write side against the counts. -/
def TracksWrite (t : ℕ) : WriteStage n → Prop
  | .idle => Nat.count (AwFires m s) t = Nat.count (BFires m s) t ∧
      Nat.count (WFires m s) t = Nat.count (BFires m s) t
  | .accepted a => (m t).awvalid = true ∧ (m t).wvalid = true ∧ (m t).awaddr = a ∧
      Nat.count (AwFires m s) t = Nat.count (BFires m s) t ∧ Nat.count (WFires m s) t = Nat.count (BFires m s) t
  | .responding => Nat.count (AwFires m s) t = Nat.count (BFires m s) t + 1 ∧
      Nat.count (WFires m s) t = Nat.count (BFires m s) t + 1

/-- The read side against the counts. -/
def TracksRead (t : ℕ) : ReadStage n → Prop
  | .idle => Nat.count (ArFires m s) t = Nat.count (RFires m s) t
  | .accepted a => (m t).arvalid = true ∧ (m t).araddr = a ∧
      Nat.count (ArFires m s) t = Nat.count (RFires m s) t
  | .responding => Nat.count (ArFires m s) t = Nat.count (RFires m s) t + 1

end Handshakes

section Track

variable {m : ℕ → Master n} {s : ℕ → Slave n} {x : ℕ → BitVec 32}

/-- One transaction at a time is one read at a time. -/
theorem Disciplined.interleaved (hd : Disciplined m s) : Interleaved m s :=
  ⟨hd.awHold, hd.wHold, hd.arHold, hd.arOnce⟩

theorem tracked_write_succ (hd : Interleaved m s) (hr : Runs m s x) {t : ℕ} {st : WriteStage n}
    (hs : (s t).InWrite st) (ht : TracksWrite m s t st) :
    ∃ st', (s (t + 1)).InWrite st' ∧ TracksWrite m s (t + 1) st' := by
  rw [hr.succ]
  cases st with
  | idle =>
    obtain ⟨hw1, hw2⟩ := ht
    have haw : ¬ AwFires m s t := fun h => absurd (hs.1.symm.trans h.2) (by simp)
    have hw : ¬ WFires m s t := fun h => absurd (hs.2.1.symm.trans h.2) (by simp)
    have hb : ¬ BFires m s t := fun h => absurd (hs.2.2.2.symm.trans h.1) (by simp)
    have hcount : Nat.count (AwFires m s) (t + 1) = Nat.count (BFires m s) (t + 1) ∧
        Nat.count (WFires m s) (t + 1) = Nat.count (BFires m s) (t + 1) := by
      rw [Nat.count_succ_eq_count_iff.mpr haw, Nat.count_succ_eq_count_iff.mpr hw,
        Nat.count_succ_eq_count_iff.mpr hb]
      exact ⟨hw1, hw2⟩
    by_cases hv : (m t).awvalid = true ∧ (m t).wvalid = true
    · obtain ⟨h1, h2⟩ := hd.awHold t hv.1 hs.1
      exact ⟨.accepted (m t).awaddr, write_accept hs hv.1 hv.2, h1, (hd.wHold t hv.2 hs.2.1).1, h2, hcount⟩
    · exact ⟨.idle, write_stay hs (by simpa using hv), hcount⟩
  | accepted a =>
    obtain ⟨hav, hwv, -, hw1, hw2⟩ := ht
    have haw : AwFires m s t := ⟨hav, hs.1⟩
    have hw : WFires m s t := ⟨hwv, hs.2.1⟩
    have hb : ¬ BFires m s t := fun h => absurd (hs.2.2.2.1.symm.trans h.1) (by simp)
    refine ⟨.responding, write_done hs hav hwv, ?_, ?_⟩
    · rw [Nat.count_succ_eq_succ_count_iff.mpr haw, Nat.count_succ_eq_count_iff.mpr hb, hw1]
    · rw [Nat.count_succ_eq_succ_count_iff.mpr hw, Nat.count_succ_eq_count_iff.mpr hb, hw2]
  | responding =>
    obtain ⟨hw1, hw2⟩ := ht
    have haw : ¬ AwFires m s t := fun h => absurd (hs.1.symm.trans h.2) (by simp)
    have hw : ¬ WFires m s t := fun h => absurd (hs.2.1.symm.trans h.2) (by simp)
    cases hbr : (m t).bready
    · have hb : ¬ BFires m s t := fun h => absurd (hbr.symm.trans h.2) (by simp)
      refine ⟨.responding, write_hold hs hbr, ?_, ?_⟩
      · rw [Nat.count_succ_eq_count_iff.mpr haw, Nat.count_succ_eq_count_iff.mpr hb, hw1]
      · rw [Nat.count_succ_eq_count_iff.mpr hw, Nat.count_succ_eq_count_iff.mpr hb, hw2]
    · have hb : BFires m s t := ⟨hs.2.2.2, hbr⟩
      refine ⟨.idle, write_respond hs hbr, ?_, ?_⟩
      · rw [Nat.count_succ_eq_count_iff.mpr haw, Nat.count_succ_eq_succ_count_iff.mpr hb, hw1]
      · rw [Nat.count_succ_eq_count_iff.mpr hw, Nat.count_succ_eq_succ_count_iff.mpr hb, hw2]

/-- No read address while a response is held. -/
theorem arvalid_of_held (hd : Interleaved m s) {t : ℕ}
    (hcnt : Nat.count (ArFires m s) t = Nat.count (RFires m s) t + 1) (hrf : ¬ RFires m s t) :
    (m t).arvalid = false := by
  by_contra hv
  rw [Bool.not_eq_false] at hv
  have honce := hd.arOnce t hv
  rw [Nat.count_succ_eq_count_iff.mpr hrf] at honce
  omega

theorem tracked_read_succ (hd : Interleaved m s) (hr : Runs m s x) {t : ℕ} {st : ReadStage n}
    (hs : (s t).InRead st) (ht : TracksRead m s t st) :
    ∃ st', (s (t + 1)).InRead st' ∧ TracksRead m s (t + 1) st' := by
  rw [hr.succ]
  cases st with
  | idle =>
    have har : ¬ ArFires m s t := fun h => absurd (hs.1.symm.trans h.2) (by simp)
    have hrf : ¬ RFires m s t := fun h => absurd (hs.2.symm.trans h.1) (by simp)
    have hcount : Nat.count (ArFires m s) (t + 1) = Nat.count (RFires m s) (t + 1) := by
      rw [Nat.count_succ_eq_count_iff.mpr har, Nat.count_succ_eq_count_iff.mpr hrf]
      exact ht
    cases hv : (m t).arvalid
    · exact ⟨.idle, read_stay hs hv, hcount⟩
    · obtain ⟨h1, h2⟩ := hd.arHold t hv hs.1
      exact ⟨.accepted (m t).araddr, read_accept hs hv, h1, h2, hcount⟩
  | accepted a =>
    obtain ⟨hv, -, hcnt⟩ := ht
    have har : ArFires m s t := ⟨hv, hs.1⟩
    have hrf : ¬ RFires m s t := fun h => absurd (hs.2.1.symm.trans h.1) (by simp)
    refine ⟨.responding, (read_done hs hv).1, ?_⟩
    show Nat.count (ArFires m s) (t + 1) = Nat.count (RFires m s) (t + 1) + 1
    rw [Nat.count_succ_eq_succ_count_iff.mpr har, Nat.count_succ_eq_count_iff.mpr hrf, hcnt]
  | responding =>
    have hcnt : Nat.count (ArFires m s) t = Nat.count (RFires m s) t + 1 := ht
    have har : ¬ ArFires m s t := fun h => absurd (hs.1.symm.trans h.2) (by simp)
    cases hrr : (m t).rready
    · have hrf : ¬ RFires m s t := fun h => absurd (hrr.symm.trans h.2) (by simp)
      refine ⟨.responding, (read_hold hs (arvalid_of_held hd hcnt hrf) hrr).1, ?_⟩
      show Nat.count (ArFires m s) (t + 1) = Nat.count (RFires m s) (t + 1) + 1
      rw [Nat.count_succ_eq_count_iff.mpr har, Nat.count_succ_eq_count_iff.mpr hrf, hcnt]
    · have hrf : RFires m s t := ⟨hs.2, hrr⟩
      have hcount : Nat.count (ArFires m s) (t + 1) = Nat.count (RFires m s) (t + 1) := by
        rw [Nat.count_succ_eq_count_iff.mpr har, Nat.count_succ_eq_succ_count_iff.mpr hrf, hcnt]
      cases hv : (m t).arvalid
      · exact ⟨.idle, read_respond hs hv hrr, hcount⟩
      · obtain ⟨h1, h2⟩ := hd.arHold t hv hs.1
        exact ⟨.accepted (m t).araddr, read_respond_accept hs hv hrr, h1, h2, hcount⟩

/-- **The stages of the slave agree with the handshakes counted**, in every cycle. -/
theorem tracked (hd : Interleaved m s) (hr : Runs m s x) (t : ℕ) :
    (∃ st, (s t).InWrite st ∧ TracksWrite m s t st) ∧ ∃ st, (s t).InRead st ∧ TracksRead m s t st := by
  induction t with
  | zero =>
    refine ⟨⟨.idle, ?_, rfl, rfl⟩, .idle, ?_, rfl⟩
    · rw [hr.zero]
      exact inWrite_init
    · rw [hr.zero]
      exact inRead_init
  | succ t ih =>
    obtain ⟨⟨st, hs, ht⟩, st', hs', ht'⟩ := ih
    exact ⟨tracked_write_succ hd hr hs ht, tracked_read_succ hd hr hs' ht'⟩

/-- No write takes effect while a read address is asserted. -/
theorem wready_of_arvalid (hd : Disciplined m s) (hr : Runs m s x) {q : ℕ} (hq : (m q).arvalid = true) :
    (s q).wready = false := by
  obtain ⟨⟨st, hs, ht⟩, -⟩ := tracked hd.interleaved hr q
  cases st with
  | idle => exact hs.2.1
  | accepted a => exact absurd (ht.1.symm.trans (hd.readAlone q hq).1) (by simp)
  | responding => exact hs.2.1

/-- A write handshake finds the slave in the accepted stage, with the address of the master. -/
theorem accepted_of_awFires (hd : Interleaved m s) (hr : Runs m s x) {t : ℕ} (h : AwFires m s t) :
    (s t).InWrite (.accepted (m t).awaddr) := by
  obtain ⟨⟨st, hs, ht⟩, -⟩ := tracked hd hr t
  cases st with
  | idle => exact absurd (hs.1.symm.trans h.2) (by simp)
  | accepted a => exact ht.2.2.1 ▸ hs
  | responding => exact absurd (hs.1.symm.trans h.2) (by simp)

/-- A read is not accepted in the cycle in which it is first asserted. -/
theorem arready_of_starts (hr : Runs m s x) {q : ℕ} (hq : Starts m s q) : (s q).arready = false := by
  rcases q with _ | u
  · rw [hr.zero]
    rfl
  · rw [hr.succ]
    rcases hq.2 u rfl with hu | hu
    · simp [clock, acceptsRead, hu]
    · simp [clock, acceptsRead, hu.2]

/-- It is accepted in the next cycle. -/
theorem accepted_of_starts (hd : Interleaved m s) (hr : Runs m s x) {q : ℕ} (hq : Starts m s q) :
    (s (q + 1)).InRead (.accepted (m q).araddr) := by
  have hready := arready_of_starts hr hq
  obtain ⟨-, st, hs, ht⟩ := tracked hd hr q
  rw [hr.succ]
  cases st with
  | idle => exact read_accept hs hq.1
  | accepted a => exact absurd (hs.1.symm.trans hready) (by simp)
  | responding =>
    -- the response before is taken in this cycle
    have hrf : RFires m s q := by
      by_contra hrf
      exact absurd (hq.1.symm.trans (arvalid_of_held hd ht hrf)) (by simp)
    exact read_respond_accept hs hq.1 hrf.2

end Track

/-! ## The answer to a read -/

/-- **A single beat.** The read first asserted in cycle `q` is accepted in cycle `q + 1`; its response is held from
`q + 2` until the handshake with the data `y`, and no other response follows before the next read. -/
structure Beat (m : ℕ → Master n) (s : ℕ → Slave n) (q : ℕ) (y : BitVec 32) : Prop where
  waits : ¬ ArFires m s q
  accepted : ArFires m s (q + 1)
  silent : (s (q + 1)).rvalid = false
  held : ∀ p, q + 2 ≤ p → (∀ u, q + 2 ≤ u → u < p → (m u).rready = false) →
    (s p).rvalid = true ∧ (s p).rdata = y
  single : ∀ p, q + 2 ≤ p → RFires m s p → (∀ u, q + 2 ≤ u → u < p → (m u).rready = false) →
    ∀ r, p < r → (∀ u, p ≤ u → u + 2 ≤ r → (m u).arvalid = false) → (s r).rvalid = false

section Beat

variable {m : ℕ → Master n} {s : ℕ → Slave n} {x : ℕ → BitVec 32}

/-- The response is held until it is taken. -/
theorem held_of_responding (hd : Interleaved m s) (hr : Runs m s x) {t p : ℕ} (hs : (s t).InRead .responding)
    (htp : t ≤ p) (hlow : ∀ u, t ≤ u → u < p → (m u).rready = false) :
    (s p).InRead .responding ∧ (s p).rdata = (s t).rdata := by
  induction p, htp using Nat.le_induction with
  | base => exact ⟨hs, rfl⟩
  | succ p htp ih =>
    obtain ⟨h1, h2⟩ := ih fun u h1 h2 => hlow u h1 (by omega)
    have hrr := hlow p htp (Nat.lt_succ_self p)
    have hrf : ¬ RFires m s p := fun h => absurd (hrr.symm.trans h.2) (by simp)
    obtain ⟨-, st, hst, ht⟩ := tracked hd hr p
    have hv : (m p).arvalid = false := by
      cases st with
      | idle => exact absurd (h1.2.symm.trans hst.2) (by simp)
      | accepted a => exact absurd (h1.2.symm.trans hst.2.1) (by simp)
      | responding => exact arvalid_of_held hd ht hrf
    have hhold := read_hold (x := x p) h1 hv hrr
    rw [hr.succ]
    exact ⟨hhold.1, hhold.2.trans h2⟩

/-- Without a read address the read side stays idle. -/
theorem idle_of_not_arvalid (hr : Runs m s x) {t r : ℕ} (hs : (s t).InRead .idle) (htr : t ≤ r)
    (hno : ∀ u, t ≤ u → u < r → (m u).arvalid = false) : (s r).InRead .idle := by
  induction r, htr using Nat.le_induction with
  | base => exact hs
  | succ r htr ih =>
    rw [hr.succ]
    exact read_stay (ih fun u h1 h2 => hno u h1 (by omega)) (hno r htr (Nat.lt_succ_self r))

/-- **The beat of a read** carries the word selected in the cycle of its acceptance, under the latched address. -/
theorem beat_of_starts (hd : Interleaved m s) (hr : Runs m s x) {q : ℕ} (hq : Starts m s q) :
    Beat m s q (x (q + 1)) ∧ (s (q + 1)).araddr = (m q).araddr := by
  have hready := arready_of_starts hr hq
  have hacc := accepted_of_starts hd hr hq
  have hv : (m (q + 1)).arvalid = true := (hd.arHold q hq.1 hready).1
  have hdone : (s (q + 2)).InRead .responding ∧ (s (q + 2)).rdata = x (q + 1) := by
    rw [hr.succ]
    exact read_done hacc hv
  refine ⟨⟨fun h => absurd (hready.symm.trans h.2) (by simp), ⟨hv, hacc.1⟩, hacc.2.1, ?_, ?_⟩, hacc.2.2⟩
  · intro p hp hlow
    obtain ⟨h1, h2⟩ := held_of_responding hd hr hdone.1 hp hlow
    exact ⟨h1.2, h2.trans hdone.2⟩
  · intro p hp hfire hlow r hpr hno
    obtain ⟨h1, -⟩ := held_of_responding hd hr hdone.1 hp hlow
    obtain ⟨r, rfl⟩ : ∃ r', r = r' + 1 := ⟨r - 1, by omega⟩
    rw [hr.succ]
    rcases Nat.eq_or_lt_of_le (Nat.le_of_lt_succ hpr) with rfl | hlt
    · exact rvalid_clock h1.1 (Or.inr hfire.2)
    · have hnext : (s (p + 1)).InRead .idle := by
        rw [hr.succ]
        exact read_respond h1 (hno p le_rfl (by omega)) hfire.2
      have hidle := idle_of_not_arvalid hr hnext hlt fun u h2 h3 => hno u (by omega) (by omega)
      exact rvalid_clock hidle.1 (Or.inl hidle.2)

end Beat

end Axi
