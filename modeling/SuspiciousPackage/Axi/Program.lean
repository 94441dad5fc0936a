import SuspiciousPackage.Axi.Stages
import SuspiciousPackage.Sync.Run

/-!
# Axi.Program — programs that access registers over the bus

A program of reads and writes, each of which waits for its response, and the processor that runs it as the master of a
register slave, at any pace.  `read_step` and `write_step` say what one access does on the bus: the slave takes it in
one cycle, and the program goes on.  `Completes` is total correctness for programs, with its rules `completes_done`,
`completes_read`, `completes_write` and `Completes.mono`.  Nothing here is about a particular slave.
-/

namespace Axi

open Slave Sync

variable {n : ℕ} {α β σ ε : Type*}

/-! ## Programs -/

/-- Accesses to whole words, one after the other. -/
inductive Program (n : ℕ) (α : Type*)
  | done (x : α)
  | read (addr : BitVec n) (next : BitVec 32 → Program n α)
  | write (addr : BitVec n) (data : BitVec 32) (next : Program n α)

namespace Program

def bind : Program n α → (α → Program n β) → Program n β
  | .done x, f => f x
  | .read a next, f => .read a fun v => (next v).bind f
  | .write a d next, f => .write a d (next.bind f)

@[simp]
theorem read_bind (a : BitVec n) (next : BitVec 32 → Program n α) (f : α → Program n β) :
    (read a next).bind f = read a fun v => (next v).bind f := rfl

@[simp]
theorem write_bind (a : BitVec n) (d : BitVec 32) (next : Program n α) (f : α → Program n β) :
    (write a d next).bind f = write a d (next.bind f) := rfl

theorem bind_done (p : Program n α) : p.bind done = p := by
  induction p with
  | done x => rfl
  | read a next ih => rw [read_bind, funext ih]
  | write a d next ih => rw [write_bind, ih]

end Program

/-! ## The processor -/

/-- What has become of a channel in the access in progress: VALID has not been raised, is held, or has been taken. -/
inductive Channel
  | waiting
  | held
  | over
deriving DecidableEq, Repr

namespace Channel

/-- VALID, when it may be raised with `go`. -/
def valid (go : Bool) : Channel → Bool
  | .waiting => go
  | .held => true
  | .over => false

def next (go ready : Bool) (c : Channel) : Channel :=
  if c.valid go then (if ready then .over else .held) else c

end Channel

/-- How fast the processor is in a cycle. -/
structure Pace where
  awGo : Bool
  wGo : Bool
  arGo : Bool
  bready : Bool
  rready : Bool
deriving DecidableEq, Repr

structure Processor (n : ℕ) (α : Type*) where
  program : Program n α
  aw : Channel
  w : Channel
  ar : Channel

namespace Processor

/-- At the start of the next access. -/
def start (p : Program n α) : Processor n α := ⟨p, .waiting, .waiting, .waiting⟩

/-- What the processor drives. -/
def master (i : Pace) (s : Processor n α) : Master n :=
  match s.program with
  | .done _ => ⟨0, false, 0, 0, false, i.bready, 0, false, i.rready⟩
  | .read a _ => ⟨0, false, 0, 0, false, i.bready, a, s.ar.valid i.arGo, i.rready⟩
  | .write a d _ => ⟨a, s.aw.valid i.awGo, d, 0xF, s.w.valid i.wGo, i.bready, 0, false, i.rready⟩

def clock (i : Pace) (c : Slave n) (s : Processor n α) : Processor n α :=
  match s.program with
  | .done _ => s
  | .read _ next =>
    if c.rvalid && i.rready then start (next c.rdata) else { s with ar := s.ar.next i.arGo c.arready }
  | .write _ _ next =>
    if c.bvalid && i.bready then start next
    else { s with aw := s.aw.next i.awGo c.awready, w := s.w.next i.wGo c.wready }

end Processor

/-! ## A processor and a register slave -/

/-- A register slave with what is behind it; `ε` is what it is given by its surroundings. -/
structure Device (n : ℕ) (σ ε : Type*) where
  clock : Master n → ε → σ → σ
  axi : σ → Slave n
  /-- The word selected for reading. -/
  regDataOut : σ → BitVec 32
  axi_clock : ∀ m e s, axi (clock m e s) = (axi s).clock true m (regDataOut s)

structure Joint (n : ℕ) (α σ : Type*) where
  processor : Processor n α
  device : σ

namespace Joint

variable (D : Device n σ ε)

/-- What the slave is driven with. -/
def master (i : Pace) (c : Joint n α σ) : Master n := c.processor.master i

def axi (c : Joint n α σ) : Slave n := D.axi c.device

def clock (i : Pace × ε) (c : Joint n α σ) : Joint n α σ where
  processor := c.processor.clock i.1 (c.axi D)
  device := D.clock (c.master i.1) i.2 c.device

def runOn (c : Joint n α σ) (ins : ℕ → Pace × ε) : ℕ → Joint n α σ := run (clock D) c ins

/-- The processor is at the start of `p`, and the slave at rest. -/
structure Ready (p : Program n α) (c : Joint n α σ) : Prop where
  processor : c.processor = .start p
  inWrite : (c.axi D).InWrite .idle
  inRead : (c.axi D).InRead .idle

/-- No register is written at the edge of this cycle. -/
def Quiet (i : Pace) (c : Joint n α σ) : Prop := (c.axi D).slvRegWren (c.master i) = false

/-- `data` is written to the register at `addr` at the edge of this cycle. -/
structure Takes (i : Pace) (addr : BitVec n) (data : BitVec 32) (c : Joint n α σ) : Prop where
  wren : (c.axi D).slvRegWren (c.master i) = true
  awaddr : (c.axi D).awaddr = addr
  wdata : (c.master i).wdata = data
  wstrb : (c.master i).wstrb = 0xF

/-- The register at `addr` is read at the edge of this cycle. -/
structure Gives (i : Pace) (addr : BitVec n) (c : Joint n α σ) : Prop where
  rden : (c.axi D).slvRegRden (c.master i) = true
  araddr : (c.axi D).araddr = addr

theorem axi_clock (i : Pace × ε) (c : Joint n α σ) :
    (c.clock D i).axi D = (c.axi D).clock true (c.master i.1) (D.regDataOut c.device) := D.axi_clock _ _ _

end Joint

/-- No signal is withheld for ever. -/
structure Fair (pace : ℕ → Pace) : Prop where
  awGo : ∀ t, ∃ u ≥ t, (pace u).awGo = true
  wGo : ∀ t, ∃ u ≥ t, (pace u).wGo = true
  arGo : ∀ t, ∃ u ≥ t, (pace u).arGo = true
  bready : ∀ t, ∃ u ≥ t, (pace u).bready = true
  rready : ∀ t, ∃ u ≥ t, (pace u).rready = true

/-- A processor that never waits. -/
def Pace.full : Pace := ⟨true, true, true, true, true⟩

theorem fair_full {f : ℕ → Pace} (h : ∀ t, f t = .full) : Fair f where
  awGo t := ⟨t, le_rfl, by rw [h]; rfl⟩
  wGo t := ⟨t, le_rfl, by rw [h]; rfl⟩
  arGo t := ⟨t, le_rfl, by rw [h]; rfl⟩
  bready t := ⟨t, le_rfl, by rw [h]; rfl⟩
  rready t := ⟨t, le_rfl, by rw [h]; rfl⟩

/-! ## The stages of an access -/

section Stages

open Joint

variable {D : Device n σ ε} {c : Joint n α σ} {i : Pace × ε} {a : BitVec n} {d : BitVec 32}
  {next : BitVec 32 → Program n α} {p : Program n α} {x : α}

/-- A read is in progress. -/
structure Reading (D : Device n σ ε) (a : BitVec n) (next : BitVec 32 → Program n α) (ar : Channel) (st : ReadStage n)
    (c : Joint n α σ) : Prop where
  processor : c.processor = ⟨.read a next, .waiting, .waiting, ar⟩
  inWrite : (c.axi D).InWrite .idle
  inRead : (c.axi D).InRead st

/-- A write is in progress. -/
structure Writing (D : Device n σ ε) (a : BitVec n) (d : BitVec 32) (p : Program n α) (aw w : Channel)
    (st : WriteStage n) (c : Joint n α σ) : Prop where
  processor : c.processor = ⟨.write a d p, aw, w, .waiting⟩
  inWrite : (c.axi D).InWrite st
  inRead : (c.axi D).InRead .idle

theorem Joint.Ready.reading (h : Ready D (.read a next) c) : Reading D a next .waiting .idle c := ⟨h.1, h.2, h.3⟩

theorem Joint.Ready.writing (h : Ready D (.write a d p) c) : Writing D a d p .waiting .waiting .idle c :=
  ⟨h.1, h.2, h.3⟩

section Reading

variable {ar : Channel} {st : ReadStage n} (h : Reading D a next ar st c)
include h

theorem Reading.master_eq (j : Pace) :
    c.master j = ⟨0, false, 0, 0, false, j.bready, a, ar.valid j.arGo, j.rready⟩ := by
  unfold Joint.master Processor.master
  rw [h.processor]

theorem Reading.quiet (j : Pace) : Quiet D j c := by
  unfold Quiet
  rw [slvRegWren_of_wready h.inWrite.2.1]

theorem Reading.inWrite_clock : ((c.clock D i).axi D).InWrite .idle := by
  rw [axi_clock]
  refine write_stay h.inWrite ?_
  rw [h.master_eq]
  rfl

/-- Without a response the read goes on. -/
theorem Reading.processor_clock (hr : ((c.axi D).rvalid && i.1.rready) = false) : (c.clock D i).processor =
    ⟨.read a next, .waiting, .waiting, ar.next i.1.arGo (c.axi D).arready⟩ := by
  show c.processor.clock i.1 (c.axi D) = _
  rw [h.processor]
  show (if ((c.axi D).rvalid && i.1.rready) = true then _ else _) = _
  rw [hr]
  rfl

end Reading

section Reads

theorem Reading.stay (h : Reading D a next .waiting .idle c) (hgo : i.1.arGo = false) :
    Reading D a next .waiting .idle (c.clock D i) where
  processor := by
    rw [h.processor_clock (by simp [h.inRead.2]), hgo]
    rfl
  inWrite := h.inWrite_clock
  inRead := by
    rw [axi_clock]
    refine read_stay h.inRead ?_
    rw [h.master_eq, hgo]
    rfl

theorem Reading.accept (h : Reading D a next .waiting .idle c) (hgo : i.1.arGo = true) :
    Reading D a next .held (.accepted a) (c.clock D i) where
  processor := by
    rw [h.processor_clock (by simp [h.inRead.2]), hgo, h.inRead.1]
    rfl
  inWrite := h.inWrite_clock
  inRead := by
    have hm := h.master_eq i.1
    rw [axi_clock, show a = (c.master i.1).araddr by rw [hm]]
    refine read_accept h.inRead ?_
    rw [hm, hgo]
    rfl

theorem Reading.done (h : Reading D a next .held (.accepted a) c) :
    Reading D a next .over .responding (c.clock D i) ∧ ((c.clock D i).axi D).rdata = D.regDataOut c.device := by
  have hdone := read_done (m := c.master i.1) (x := D.regDataOut c.device) h.inRead (by rw [h.master_eq]; rfl)
  rw [← axi_clock] at hdone
  refine ⟨⟨?_, h.inWrite_clock, hdone.1⟩, hdone.2⟩
  rw [h.processor_clock (by simp [h.inRead.2.1]), h.inRead.1]
  rfl

theorem Reading.gives (h : Reading D a next .held (.accepted a) c) (j : Pace) : Gives D j a c where
  rden := by
    unfold slvRegRden
    rw [h.master_eq, h.inRead.1, h.inRead.2.1]
    rfl
  araddr := h.inRead.2.2

theorem Reading.hold (h : Reading D a next .over .responding c) (hr : i.1.rready = false) :
    Reading D a next .over .responding (c.clock D i) ∧ ((c.clock D i).axi D).rdata = (c.axi D).rdata := by
  have hm := h.master_eq i.1
  have hhold := read_hold (m := c.master i.1) (x := D.regDataOut c.device) h.inRead (by rw [hm]; rfl) (by rw [hm, hr])
  rw [← axi_clock] at hhold
  refine ⟨⟨?_, h.inWrite_clock, hhold.1⟩, hhold.2⟩
  rw [h.processor_clock (by simp [hr])]
  rfl

theorem Reading.respond (h : Reading D a next .over .responding c) (hr : i.1.rready = true) :
    Ready D (next (c.axi D).rdata) (c.clock D i) where
  processor := by
    show c.processor.clock i.1 (c.axi D) = _
    rw [h.processor]
    show (if ((c.axi D).rvalid && i.1.rready) = true then _ else _) = _
    rw [h.inRead.2, hr]
    rfl
  inWrite := h.inWrite_clock
  inRead := by
    have hm := h.master_eq i.1
    rw [axi_clock]
    exact read_respond h.inRead (by rw [hm]; rfl) (by rw [hm, hr])

end Reads

section Writing

variable {aw w : Channel} {st : WriteStage n} (h : Writing D a d p aw w st c)
include h

theorem Writing.master_eq (j : Pace) : c.master j =
    ⟨a, aw.valid j.awGo, d, 0xF, w.valid j.wGo, j.bready, 0, false, j.rready⟩ := by
  unfold Joint.master Processor.master
  rw [h.processor]

theorem Writing.inRead_clock : ((c.clock D i).axi D).InRead .idle := by
  rw [axi_clock]
  refine read_stay h.inRead ?_
  rw [h.master_eq]

theorem Writing.processor_clock (hb : ((c.axi D).bvalid && i.1.bready) = false) : (c.clock D i).processor =
    ⟨.write a d p, aw.next i.1.awGo (c.axi D).awready, w.next i.1.wGo (c.axi D).wready, .waiting⟩ := by
  show c.processor.clock i.1 (c.axi D) = _
  rw [h.processor]
  show (if ((c.axi D).bvalid && i.1.bready) = true then _ else _) = _
  rw [hb]
  rfl

end Writing

section Writes

variable {aw w : Channel}

theorem Writing.quiet (h : Writing D a d p aw w .idle c) (j : Pace) : Quiet D j c := by
  unfold Quiet
  rw [slvRegWren_of_wready h.inWrite.2.1]

theorem Writing.quiet_responding (h : Writing D a d p aw w .responding c) (j : Pace) : Quiet D j c := by
  unfold Quiet
  rw [slvRegWren_of_wready h.inWrite.2.1]

/-- Until both channels are valid the slave waits. -/
theorem Writing.stay (h : Writing D a d p aw w .idle c) (hgo : (aw.valid i.1.awGo && w.valid i.1.wGo) = false) :
    Writing D a d p (aw.next i.1.awGo false) (w.next i.1.wGo false) .idle (c.clock D i) where
  processor := by
    rw [h.processor_clock (by simp [h.inWrite.2.2.2]), h.inWrite.1, h.inWrite.2.1]
  inWrite := by
    rw [axi_clock]
    refine write_stay h.inWrite ?_
    rw [h.master_eq, hgo]
  inRead := h.inRead_clock

theorem Writing.accept (h : Writing D a d p aw w .idle c) (haw : aw.valid i.1.awGo = true)
    (hw : w.valid i.1.wGo = true) :
    Writing D a d p .held .held (.accepted a) (c.clock D i) where
  processor := by
    rw [h.processor_clock (by simp [h.inWrite.2.2.2]), h.inWrite.1, h.inWrite.2.1]
    unfold Channel.next
    rw [haw, hw]
    rfl
  inWrite := by
    have hm := h.master_eq i.1
    rw [axi_clock, show a = (c.master i.1).awaddr by rw [hm]]
    exact write_accept h.inWrite (by rw [hm, haw]) (by rw [hm, hw])
  inRead := h.inRead_clock

theorem Writing.takes (h : Writing D a d p .held .held (.accepted a) c) (j : Pace) : Takes D j a d c where
  wren := by
    rw [slvRegWren_of_accepted h.inWrite, h.master_eq]
    rfl
  awaddr := h.inWrite.2.2.2.2
  wdata := by rw [h.master_eq]
  wstrb := by rw [h.master_eq]

theorem Writing.done (h : Writing D a d p .held .held (.accepted a) c) :
    Writing D a d p .over .over .responding (c.clock D i) where
  processor := by
    rw [h.processor_clock (by simp [h.inWrite.2.2.2.1]), h.inWrite.1, h.inWrite.2.1]
    rfl
  inWrite := by
    rw [axi_clock]
    exact write_done h.inWrite (by rw [h.master_eq]; rfl) (by rw [h.master_eq]; rfl)
  inRead := h.inRead_clock

theorem Writing.hold (h : Writing D a d p .over .over .responding c) (hb : i.1.bready = false) :
    Writing D a d p .over .over .responding (c.clock D i) where
  processor := by
    rw [h.processor_clock (by simp [hb])]
    rfl
  inWrite := by
    rw [axi_clock]
    exact write_hold h.inWrite (by rw [h.master_eq, hb])
  inRead := h.inRead_clock

theorem Writing.respond (h : Writing D a d p .over .over .responding c) (hb : i.1.bready = true) :
    Ready D p (c.clock D i) where
  processor := by
    show c.processor.clock i.1 (c.axi D) = _
    rw [h.processor]
    show (if ((c.axi D).bvalid && i.1.bready) = true then _ else _) = _
    rw [h.inWrite.2.2.2, hb]
    rfl
  inWrite := by
    rw [axi_clock]
    exact write_respond h.inWrite (by rw [h.master_eq, hb])
  inRead := h.inRead_clock

end Writes

end Stages

/-! ## One access -/

section Access

open Joint

variable {D : Device n σ ε} {c₀ : Joint n α σ} {ins : ℕ → Pace × ε} {t u : ℕ} {a : BitVec n} {d : BitVec 32}
  {next : BitVec 32 → Program n α} {p : Program n α} {x : α}

/-- No register is written in the cycles from `t` on before `u`. -/
def QuietIn (D : Device n σ ε) (c₀ : Joint n α σ) (ins : ℕ → Pace × ε) (t u : ℕ) : Prop :=
  ∀ z, t ≤ z → z < u → Quiet D (ins z).1 (runOn D c₀ ins z)

theorem QuietIn.trans {v : ℕ} (h : QuietIn D c₀ ins t u) (h' : QuietIn D c₀ ins u v) : QuietIn D c₀ ins t v := by
  intro z h1 h2
  by_cases hz : z < u
  · exact h z h1 hz
  · exact h' z (by omega) h2

/-- The first cycle from `t` on in which a signal that is not withheld for ever is high. -/
theorem exists_first {go : ℕ → Bool} (h : ∃ u ≥ t, go u = true) :
    ∃ u ≥ t, go u = true ∧ ∀ z, t ≤ z → z < u → go z = false := by
  obtain ⟨u, hu, hgo⟩ := h
  induction u using Nat.strong_induction_on with
  | _ u ih =>
    by_cases hno : ∃ z, t ≤ z ∧ z < u ∧ go z = true
    · obtain ⟨z, hz, hzu, hgoz⟩ := hno
      exact ih z hzu hz hgoz
    · exact ⟨u, hu, hgo, fun z hz hzu => Bool.eq_false_of_not_eq_true fun hgoz => hno ⟨z, hz, hzu, hgoz⟩⟩

/-- **A read** returns the word selected in the cycle `q` in which it is taken. -/
theorem read_step (hfair : Fair fun t => (ins t).1) (h : Ready D (.read a next) (runOn D c₀ ins t)) :
    ∃ q u, t < q ∧ q + 2 ≤ u ∧ QuietIn D c₀ ins t u ∧ Gives D (ins q).1 a (runOn D c₀ ins q) ∧
      Ready D (next (D.regDataOut (runOn D c₀ ins q).device)) (runOn D c₀ ins u) := by
  obtain ⟨g, htg, hgo, hwait⟩ := exists_first (hfair.arGo t)
  have hidle : ∀ z, t ≤ z → z ≤ g → Reading D a next .waiting .idle (runOn D c₀ ins z) := by
    intro z htz
    induction z, htz using Nat.le_induction with
    | base => exact fun _ => h.reading
    | succ z htz ih => exact fun hz => (ih (by omega)).stay (hwait z htz (by omega))
  have haccepted : Reading D a next .held (.accepted a) (runOn D c₀ ins (g + 1)) := (hidle g htg le_rfl).accept hgo
  obtain ⟨e, hge, hready, hlow⟩ := exists_first (hfair.rready (g + 2))
  have hresponding : ∀ z, g + 2 ≤ z → z ≤ e → Reading D a next .over .responding (runOn D c₀ ins z) ∧
      ((runOn D c₀ ins z).axi D).rdata = D.regDataOut (runOn D c₀ ins (g + 1)).device := by
    intro z hgz
    induction z, hgz using Nat.le_induction with
    | base => exact fun _ => haccepted.done
    | succ z hgz ih =>
      intro hz
      obtain ⟨hr, hdata⟩ := ih (by omega)
      obtain ⟨hr', hdata'⟩ := hr.hold (i := ins z) (hlow z hgz (by omega))
      exact ⟨hr', hdata'.trans hdata⟩
  obtain ⟨hlast, hdata⟩ := hresponding e hge le_rfl
  have hend : Ready D (next ((runOn D c₀ ins e).axi D).rdata) (runOn D c₀ ins (e + 1)) := hlast.respond hready
  rw [hdata] at hend
  refine ⟨g + 1, e + 1, by omega, by omega, ?_, haccepted.gives _, hend⟩
  intro z h1 h2
  rcases (by omega : z ≤ g ∨ z = g + 1 ∨ g + 2 ≤ z) with hz | rfl | hz
  · exact (hidle z h1 hz).quiet _
  · exact haccepted.quiet _
  · exact (hresponding z hz (by omega)).1.quiet _

/-- A channel whose VALID is first raised in cycle `x`. -/
def raised (x z : ℕ) : Channel := if x < z then .held else .waiting

theorem raised_first {go : ℕ → Bool} {x z : ℕ} (hlow : ∀ z, t ≤ z → z < x → go z = false) (hgo : go x = true)
    (htz : t ≤ z) :
    (raised x z).valid (go z) = decide (x ≤ z) ∧ (raised x z).next (go z) false = raised x (z + 1) := by
  have hvalid : (raised x z).valid (go z) = decide (x ≤ z) := by
    unfold raised
    rcases Nat.lt_trichotomy x z with hlt | rfl | hgt
    · rw [if_pos hlt, decide_eq_true hlt.le]
      rfl
    · rw [if_neg (lt_irrefl x), decide_eq_true le_rfl]
      exact hgo
    · rw [if_neg (by omega), decide_eq_false (by omega)]
      exact hlow z htz hgt
  refine ⟨hvalid, ?_⟩
  unfold Channel.next
  rw [hvalid]
  by_cases hx : x ≤ z
  · rw [decide_eq_true hx]
    exact (if_pos (Nat.lt_succ_of_le hx)).symm
  · rw [decide_eq_false hx]
    unfold raised
    rw [if_neg (by omega : ¬ x < z), if_neg (by omega : ¬ x < z + 1)]
    rfl

/-- **A write** is taken in one cycle `q`, and in no other one. -/
theorem write_step (hfair : Fair fun t => (ins t).1) (h : Ready D (.write a d p) (runOn D c₀ ins t)) :
    ∃ q u, t < q ∧ q + 2 ≤ u ∧ QuietIn D c₀ ins t q ∧ Takes D (ins q).1 a d (runOn D c₀ ins q) ∧
      QuietIn D c₀ ins (q + 1) u ∧ Ready D p (runOn D c₀ ins u) := by
  obtain ⟨x, htx, hgox, hx⟩ := exists_first (hfair.awGo t)
  obtain ⟨y, hty, hgoy, hy⟩ := exists_first (hfair.wGo t)
  have haw (z : ℕ) (hz : t ≤ z) := raised_first hx hgox hz
  have hw (z : ℕ) (hz : t ≤ z) := raised_first hy hgoy hz
  have hidle : ∀ z, t ≤ z → z ≤ max x y →
      Writing D a d p (raised x z) (raised y z) .idle (runOn D c₀ ins z) := by
    intro z htz
    induction z, htz using Nat.le_induction with
    | base =>
      intro _
      unfold raised
      rw [if_neg (by omega), if_neg (by omega)]
      exact h.writing
    | succ z htz ih =>
      intro hz
      have hstay := (ih (by omega)).stay (i := ins z) (by
        rw [(haw z htz).1, (hw z htz).1, ← Bool.decide_and, decide_eq_false]
        omega)
      rwa [(haw z htz).2, (hw z htz).2] at hstay
  have htg : t ≤ max x y := htx.le.trans (le_max_left x y)
  have haccepted : Writing D a d p .held .held (.accepted a) (runOn D c₀ ins (max x y + 1)) :=
    (hidle _ htg le_rfl).accept ((haw _ htg).1.trans (decide_eq_true (le_max_left x y)))
      ((hw _ htg).1.trans (decide_eq_true (le_max_right x y)))
  generalize max x y = g at *
  obtain ⟨e, hge, hready, hlow⟩ := exists_first (hfair.bready (g + 2))
  have hresponding : ∀ z, g + 2 ≤ z → z ≤ e → Writing D a d p .over .over .responding (runOn D c₀ ins z) := by
    intro z hgz
    induction z, hgz using Nat.le_induction with
    | base => exact fun _ => haccepted.done
    | succ z hgz ih => exact fun hz => (ih (by omega)).hold (i := ins z) (hlow z hgz (by omega))
  refine ⟨g + 1, e + 1, by omega, by omega, ?_, haccepted.takes _, ?_, (hresponding e hge le_rfl).respond hready⟩
  · exact fun z h1 h2 => (hidle z h1 (by omega)).quiet _
  · exact fun z h1 h2 => (hresponding z h1 (by omega)).quiet_responding _

end Access

/-! ## Total correctness -/

section Completes

open Joint

variable {D : Device n σ ε} {c₀ : Joint n α σ} {ins : ℕ → Pace × ε} {t : ℕ} {Q Q' : β → ℕ → Prop}

/-- The program `p`, begun in cycle `t` of a run, comes to its end, with a result and in a cycle for which `Q` holds. -/
def Completes (D : Device n σ ε) (c₀ : Joint n α σ) (ins : ℕ → Pace × ε) (t : ℕ) (p : Program n β)
    (Q : β → ℕ → Prop) : Prop :=
  ∀ f : β → Program n α, Ready D (p.bind f) (runOn D c₀ ins t) →
    ∃ u ≥ t, ∃ x, Ready D (f x) (runOn D c₀ ins u) ∧ Q x u

theorem Completes.mono {p : Program n β} (h : Completes D c₀ ins t p Q) (hQ : ∀ x u, t ≤ u → Q x u → Q' x u) :
    Completes D c₀ ins t p Q' := by
  intro f hr
  obtain ⟨u, htu, x, hu, hx⟩ := h f hr
  exact ⟨u, htu, x, hu, hQ x u htu hx⟩

theorem completes_done {x : β} (h : Q x t) : Completes D c₀ ins t (.done x) Q := fun _ hr => ⟨t, le_rfl, x, hr, h⟩

theorem completes_read {a : BitVec n} {next : BitVec 32 → Program n β} (hfair : Fair fun t => (ins t).1)
    (h : ∀ q u, t < q → q + 2 ≤ u → QuietIn D c₀ ins t u → Gives D (ins q).1 a (runOn D c₀ ins q) →
      Completes D c₀ ins u (next (D.regDataOut (runOn D c₀ ins q).device)) Q) :
    Completes D c₀ ins t (.read a next) Q := by
  intro f hr
  obtain ⟨q, u, htq, hqu, hquiet, ha, hu⟩ := read_step hfair hr
  obtain ⟨v, huv, x, hv, hx⟩ := h q u htq hqu hquiet ha f hu
  exact ⟨v, by omega, x, hv, hx⟩

theorem completes_write {a : BitVec n} {d : BitVec 32} {p : Program n β} (hfair : Fair fun t => (ins t).1)
    (h : ∀ q u, t < q → q + 2 ≤ u → QuietIn D c₀ ins t q → Takes D (ins q).1 a d (runOn D c₀ ins q) →
      QuietIn D c₀ ins (q + 1) u → Completes D c₀ ins u p Q) :
    Completes D c₀ ins t (.write a d p) Q := by
  intro f hr
  obtain ⟨q, u, htq, hqu, hquiet, htakes, hquiet', hu⟩ := write_step hfair hr
  obtain ⟨v, huv, x, hv, hx⟩ := h q u htq hqu hquiet htakes hquiet' f hu
  exact ⟨v, by omega, x, hv, hx⟩

/-- A program that runs on its own comes to its end. -/
theorem Completes.finish {p : Program n α} {Q : α → ℕ → Prop} (h : Completes D c₀ ins t p Q)
    (hr : Ready D p (runOn D c₀ ins t)) : ∃ u ≥ t, ∃ x, Ready D (.done x) (runOn D c₀ ins u) ∧ Q x u :=
  h .done (by rwa [Program.bind_done])

end Completes

end Axi
