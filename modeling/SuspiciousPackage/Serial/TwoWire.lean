import Mathlib.Data.List.Forall2
import Mathlib.Data.Option.Basic
import Mathlib.Tactic.Common

/-!
# Serial.TwoWire — what a two-wire bus carries

`Monitor` reads a clock line and a data line sample by sample: data falling under a high clock starts a message, data
rising under a high clock ends it, and a bit is what the data line shows while the clock is high; it counts when the clock
falls.  A master that works at the pace of a slower clock gives the lines one of the shapes of `Symbol` in each period of
it, pulsing the clock line with the slower clock where the shape is a pulse (`Phase`).  `Line` is what a sequence of
symbols is meant to carry, with `none` for the bits the master leaves to the other side.  `follows_stay` and
`follows_turn` say that the monitor reads what was meant.
-/

namespace TwoWire

/-! ## The monitor -/

structure Monitor where
  scl : Bool
  sda : Bool
  /-- The bits of the message in progress. -/
  bits : Option (List Bool)
  /-- The bit the data line shows while the clock line is high. -/
  pending : Option Bool
  /-- The messages that have ended. -/
  messages : List (List Bool)
deriving DecidableEq, Repr

namespace Monitor

/-- Both lines high, nothing read. -/
def init : Monitor := ⟨true, true, none, none, []⟩

/-- The message in progress is over. -/
def closed (m : Monitor) : List (List Bool) := m.messages ++ m.bits.toList

/-- One more sample of the lines. -/
def sample (scl sda : Bool) (m : Monitor) : Monitor :=
  if m.scl ∧ scl then
    if m.sda ∧ ¬ sda then ⟨scl, sda, some [], none, m.closed⟩
    else if ¬ m.sda ∧ sda then ⟨scl, sda, none, none, m.closed⟩
    else m
  else if ¬ m.scl ∧ scl then { m with scl := scl, sda := sda, pending := some sda }
  else if m.scl ∧ ¬ scl then
    { m with scl := scl, sda := sda, bits := m.bits.map (· ++ m.pending.toList), pending := none }
  else { m with scl := scl, sda := sda }

variable {m : Monitor} {scl sda : Bool}

@[simp] theorem sample_scl : (m.sample scl sda).scl = scl := by
  obtain ⟨c, d, bits, pending, messages⟩ := m
  cases c <;> cases d <;> cases scl <;> cases sda <;> rfl

@[simp] theorem sample_sda : (m.sample scl sda).sda = sda := by
  obtain ⟨c, d, bits, pending, messages⟩ := m
  cases c <;> cases d <;> cases scl <;> cases sda <;> rfl

theorem sample_start (hc : m.scl = true) (hd : m.sda = true) :
    m.sample true false = ⟨true, false, some [], none, m.closed⟩ := by
  simp [sample, hc, hd]

theorem sample_stop (hc : m.scl = true) (hd : m.sda = false) :
    m.sample true true = ⟨true, true, none, none, m.closed⟩ := by
  simp [sample, hc, hd]

/-- Under a high clock nothing happens while the data line stays. -/
theorem sample_steady (hc : m.scl = true) : m.sample true m.sda = m := by
  cases hd : m.sda <;> simp [sample, hc, hd]

/-- With the clock line as it was, only the data line changes. -/
theorem sample_same (h : m.scl = true → sda = m.sda) : m.sample m.scl sda = { m with sda := sda } := by
  obtain ⟨c, d, bits, pending, messages⟩ := m
  cases c with
  | false => rfl
  | true =>
    obtain rfl : sda = d := h rfl
    exact sample_steady rfl

theorem sample_rise (hc : m.scl = false) :
    m.sample true sda = { m with scl := true, sda := sda, pending := some sda } := by
  simp [sample, hc]

theorem sample_fall (hc : m.scl = true) :
    m.sample false sda = { m with scl := false, sda := sda, bits := m.bits.map (· ++ m.pending.toList), pending := none } := by
  simp [sample, hc]

theorem sample_low (hc : m.scl = false) : m.sample false sda = { m with scl := false, sda := sda } := by
  simp [sample, hc]

end Monitor

/-! ## Symbols -/

/-- Where a period of the slower clock is: before it rises, high, just fallen, and in its last cycle. -/
inductive Phase
  | low
  | high
  | fallen
  | turn
deriving DecidableEq, Repr

/-- From one cycle to the next one within a period. -/
inductive Phase.Next : Phase → Phase → Prop
  | low : Phase.Next .low .low
  | rise : Phase.Next .low .high
  | high : Phase.Next .high .high
  | fall : Phase.Next .high .fallen
  | last : Phase.Next .fallen .turn

/-- The shape of the lines during one period. -/
inductive Symbol
  /-- Both lines high. -/
  | idle
  /-- Data low under a high clock, after `idle`. -/
  | start
  /-- Clock low. -/
  | low
  /-- The clock line follows the slower clock; the data line shows the bit, or what the other side puts on it. -/
  | pulse (b : Option Bool)
  /-- Data low under a high clock, after `low`. -/
  | rise
deriving DecidableEq, Repr

namespace Symbol

/-- The clock line. -/
def scl : Symbol → Phase → Bool
  | idle, _ | start, _ | rise, _ => true
  | low, _ => false
  | pulse _, ph => ph = .high

/-- What the data line is known to show. -/
def sda : Symbol → Option Bool
  | idle => some true
  | start | rise => some false
  | low => none
  | pulse b => b

/-- The symbols a master may show one after the other. -/
def Legal : Symbol → Symbol → Bool
  | idle, idle | idle, start | start, low | low, low | low, pulse _ | low, rise | pulse _, low | pulse _, pulse _
  | rise, idle => true
  | _, _ => false

end Symbol

/-! ## What a sequence of symbols is meant to carry -/

structure Line where
  bits : Option (List (Option Bool))
  messages : List (List (Option Bool))
deriving DecidableEq, Repr

namespace Line

def init : Line := ⟨none, []⟩

/-- The message in progress at the end of a symbol. -/
def bitsAfter (e : Line) : Symbol → Option (List (Option Bool))
  | .pulse b => e.bits.map (· ++ [b])
  | _ => e.bits

/-- From one symbol to the next one. -/
def turn (s s' : Symbol) (e : Line) : Line :=
  match s, s' with
  | .idle, .start => ⟨some [], e.messages ++ e.bits.toList⟩
  | .rise, .idle => ⟨none, e.messages ++ e.bits.toList⟩
  | s, _ => { e with bits := e.bitsAfter s }

/-- The bit of a symbol, if it has one. -/
def carried : Symbol → List (Option Bool)
  | .pulse b => [b]
  | _ => []

theorem bitsAfter_eq (e : Line) (s : Symbol) : e.bitsAfter s = e.bits.map (· ++ carried s) := by
  cases s with
  | pulse b => rfl
  | _ => exact (by simp [bitsAfter, carried])

/-- Without a start or a stop only bits are added. -/
theorem turn_eq (e : Line) {s s' : Symbol} (hs : s ≠ .idle) (hr : s ≠ .rise) :
    e.turn s s' = ⟨e.bits.map (· ++ carried s), e.messages⟩ := by
  rw [← bitsAfter_eq]
  cases s with
  | idle => exact absurd rfl hs
  | rise => exact absurd rfl hr
  | _ => rfl

/-- Messages are only added. -/
theorem messages_prefix_turn (s s' : Symbol) (e : Line) : e.messages <+: (e.turn s s').messages := by
  unfold turn
  split
  · exact List.prefix_append _ _
  · exact List.prefix_append _ _
  · exact List.prefix_refl _

end Line

/-- The bits read are the bits meant. -/
def Reads (e : List (Option Bool)) (b : List Bool) : Prop := List.Forall₂ (fun x y => ∀ v ∈ x, y = v) e b

theorem Reads.concat {e : List (Option Bool)} {b : List Bool} (h : Reads e b) {x : Option Bool} {y : Bool}
    (hx : ∀ v ∈ x, y = v) : Reads (e ++ [x]) (b ++ [y]) :=
  List.rel_append h (List.Forall₂.cons hx List.Forall₂.nil)

theorem reads_map_concat {e : Option (List (Option Bool))} {b : Option (List Bool)} (h : Option.Rel Reads e b)
    {x : Option Bool} {y : Bool} (hx : ∀ v ∈ x, y = v) : Option.Rel Reads (e.map (· ++ [x])) (b.map (· ++ [y])) := by
  cases h with
  | some hr => exact .some (hr.concat hx)
  | none => exact .none

/-- The messages read are the messages meant. -/
def ReadsAll (e : List (List (Option Bool))) (b : List (List Bool)) : Prop := List.Forall₂ Reads e b

theorem ReadsAll.append_toList {e : List (List (Option Bool))} {b : List (List Bool)} (h : ReadsAll e b)
    {x : Option (List (Option Bool))} {y : Option (List Bool)} (hx : Option.Rel Reads x y) :
    ReadsAll (e ++ x.toList) (b ++ y.toList) := by
  refine List.rel_append h ?_
  cases hx with
  | some hr => exact .cons hr .nil
  | none => exact .nil

theorem ReadsAll.of_append {e e' : List (List (Option Bool))} {b : List (List Bool)} (h : ReadsAll (e ++ e') b) :
    ∃ x y, b = x ++ y ∧ ReadsAll e x ∧ ReadsAll e' y := by
  induction e generalizing b with
  | nil => exact ⟨[], b, rfl, .nil, h⟩
  | cons a e ih =>
    obtain ⟨m, b', hm, hb, rfl⟩ := List.forall₂_cons_left_iff.mp h
    obtain ⟨x, y, rfl, hx, hy⟩ := ih hb
    exact ⟨m :: x, y, rfl, .cons hm hx, hy⟩

/-! ## The monitor follows the symbols -/

/-- The monitor in phase `ph` of a period with symbol `s`, when `e` was meant at its beginning. -/
structure Follows (e : Line) (s : Symbol) (ph : Phase) (m : Monitor) : Prop where
  scl : m.scl = s.scl ph
  sda : ∀ v ∈ s.sda, m.sda = v
  bits : Option.Rel Reads (if ph = .fallen ∨ ph = .turn then e.bitsAfter s else e.bits) m.bits
  pending : ph = .high → ∀ b, s = .pulse b → m.pending = some m.sda
  fresh : s = .start → m.pending = none
  messages : ReadsAll e.messages m.messages

theorem follows_init : Follows Line.init .idle .low Monitor.init :=
  ⟨rfl, by simp [Symbol.sda, Monitor.init], .none, nofun, nofun, List.Forall₂.nil⟩

section Steps

variable {e : Line} {s s' : Symbol} {ph ph' : Phase} {m : Monitor} {scl sda : Bool}

theorem Follows.closed (h : Follows e s ph m) (hs : e.bitsAfter s = e.bits) :
    ReadsAll (e.messages ++ e.bits.toList) m.closed := by
  have hb := h.bits
  rw [hs, ite_self] at hb
  exact h.messages.append_toList hb

/-- Symbols other than pulses look the same all the time. -/
theorem follows_flat (h : Follows e s ph m) (hs : ∀ b, s ≠ .pulse b) (hscl : scl = s.scl ph') (hsda : ∀ v ∈ s.sda, sda = v)
    (hkeep : m.scl = true → scl = true → sda = m.sda) : Follows e s ph' (m.sample scl sda) := by
  have hbits : e.bitsAfter s = e.bits := by
    cases s with
    | pulse b => exact absurd rfl (hs b)
    | _ => rfl
  have hlevel : s.scl ph' = s.scl ph := by
    cases s with
    | pulse b => exact absurd rfl (hs b)
    | _ => rfl
  have hb := h.bits
  rw [hbits, ite_self] at hb
  obtain rfl : scl = m.scl := by rw [hscl, hlevel, h.scl]
  rw [Monitor.sample_same fun hc => hkeep hc hc]
  refine ⟨by rw [hlevel]; exact h.scl, hsda, ?_, fun _ b hp => absurd hp (hs b), h.fresh, h.messages⟩
  rw [hbits, ite_self]
  exact hb

/-- **A cycle within a period.** -/
theorem follows_stay (h : Follows e s ph m) (hph : Phase.Next ph ph') (hscl : scl = s.scl ph')
    (hsda : ∀ v ∈ s.sda, sda = v) (hkeep : m.scl = true → scl = true → sda = m.sda) :
    Follows e s ph' (m.sample scl sda) := by
  cases s with
  | pulse b =>
    have hc := h.scl
    have hb := h.bits
    cases hph with
    | low =>
      obtain rfl : scl = false := hscl
      rw [Monitor.sample_low hc]
      exact ⟨rfl, hsda, hb, nofun, nofun, h.messages⟩
    | rise =>
      obtain rfl : scl = true := hscl
      rw [Monitor.sample_rise hc]
      exact ⟨rfl, hsda, hb, fun _ _ _ => rfl, nofun, h.messages⟩
    | high =>
      obtain rfl : scl = true := hscl
      rw [hkeep hc rfl, Monitor.sample_steady hc]
      exact h
    | fall =>
      obtain rfl : scl = false := hscl
      rw [Monitor.sample_fall hc]
      refine ⟨rfl, hsda, ?_, nofun, nofun, h.messages⟩
      -- the bit on the line counts
      show Option.Rel Reads (e.bits.map (· ++ [b])) (m.bits.map (· ++ m.pending.toList))
      rw [h.pending rfl b rfl]
      exact reads_map_concat (e := e.bits) hb h.sda
    | last =>
      obtain rfl : scl = false := hscl
      rw [Monitor.sample_low hc]
      exact ⟨rfl, hsda, hb, nofun, nofun, h.messages⟩
  | _ => exact follows_flat h (by simp) hscl hsda hkeep

/-- **From one period to the next one.** -/
theorem follows_turn (h : Follows e s .turn m) (hl : Symbol.Legal s s' = true) (hscl : scl = s'.scl .low)
    (hsda : ∀ v ∈ s'.sda, sda = v) : Follows (e.turn s s') s' .low (m.sample scl sda) := by
  have hc := h.scl
  have hb : Option.Rel Reads (e.bitsAfter s) m.bits := h.bits
  have hm := h.messages
  have hcl := h.closed
  have hd := h.sda
  have hf := h.fresh
  cases s with
  | idle =>
    have hd' : m.sda = true := hd true rfl
    cases s' with
    | idle =>
      obtain rfl : scl = true := hscl
      obtain rfl : sda = m.sda := (hsda true rfl).trans hd'.symm
      rw [Monitor.sample_steady hc]
      exact ⟨hc, hd, hb, nofun, nofun, hm⟩
    | start =>
      obtain rfl : scl = true := hscl
      obtain rfl : sda = false := hsda false rfl
      rw [Monitor.sample_start hc hd']
      exact ⟨rfl, hsda, .some .nil, nofun, fun _ => rfl, hcl rfl⟩
    | _ => cases hl
  | start =>
    cases s' with
    | low =>
      obtain rfl : scl = false := hscl
      rw [Monitor.sample_fall hc, hf rfl]
      refine ⟨rfl, hsda, ?_, nofun, nofun, hm⟩
      have hkeep : m.bits.map (· ++ ([] : List Bool)) = m.bits := by simp
      show Option.Rel Reads e.bits (m.bits.map (· ++ []))
      rw [hkeep]
      exact hb
    | _ => cases hl
  | low =>
    cases s' with
    | low =>
      obtain rfl : scl = false := hscl
      rw [Monitor.sample_low hc]
      exact ⟨rfl, hsda, hb, nofun, nofun, hm⟩
    | pulse b =>
      obtain rfl : scl = false := hscl
      rw [Monitor.sample_low hc]
      exact ⟨rfl, hsda, hb, nofun, nofun, hm⟩
    | rise =>
      obtain rfl : scl = true := hscl
      rw [Monitor.sample_rise hc]
      exact ⟨rfl, hsda, hb, nofun, nofun, hm⟩
    | _ => cases hl
  | pulse b =>
    cases s' with
    | low =>
      obtain rfl : scl = false := hscl
      rw [Monitor.sample_low hc]
      exact ⟨rfl, hsda, hb, nofun, nofun, hm⟩
    | pulse b' =>
      obtain rfl : scl = false := hscl
      rw [Monitor.sample_low hc]
      exact ⟨rfl, hsda, hb, nofun, nofun, hm⟩
    | _ => cases hl
  | rise =>
    have hd' : m.sda = false := hd false rfl
    cases s' with
    | idle =>
      obtain rfl : scl = true := hscl
      obtain rfl : sda = true := hsda true rfl
      rw [Monitor.sample_stop hc hd']
      exact ⟨rfl, hsda, .none, nofun, nofun, hcl rfl⟩
    | _ => cases hl

end Steps

end TwoWire
