import Mathlib.Logic.Function.Basic
import Mathlib.Tactic.Common

/-!
# Sync.Ram — synchronous block RAMs

`Ram α` is a single-port block RAM with an output register: the cells, the output latch of the memory
primitive and the output register.  A read therefore shows two edges after its address, and both stages
hold while the enable is low.  `DualRam α` is a simple dual-port RAM (write port A, read port B) without output
register.  Cells are addressed by numbers.  A `Ram` has a cell for each of them; a `DualRam` writes only those inside its
depth, and what its port B reads outside the depth is an argument of the clock edge.
-/

namespace Sync

variable {α : Type*}

/-- What a write shows on the output latch: the new datum or the old cell. -/
inductive WriteMode
  | writeFirst
  | readFirst
deriving DecidableEq, Repr

structure Ram (α : Type*) where
  mem : ℕ → α
  latch : α
  dout : α

namespace Ram

/-- A RAM whose cells and output stages all hold `x`. -/
def const (x : α) : Ram α := ⟨fun _ => x, x, x⟩

/-- One edge of port A. -/
def clock (mode : WriteMode) (ena wea : Bool) (addra : ℕ) (dina : α) (r : Ram α) : Ram α :=
  if ena then
    { mem := if wea then Function.update r.mem addra dina else r.mem
      latch := if wea ∧ mode = .writeFirst then dina else r.mem addra
      dout := r.latch }
  else r

variable {mode : WriteMode} {ena wea : Bool} {a : ℕ} {x : α} {r : Ram α}

theorem clock_write_readFirst :
    r.clock .readFirst true true a x = ⟨Function.update r.mem a x, r.mem a, r.latch⟩ := by
  simp [clock]

theorem clock_write_writeFirst :
    r.clock .writeFirst true true a x = ⟨Function.update r.mem a x, x, r.latch⟩ := by
  simp [clock]

/-- Without a write the cells are kept. -/
theorem clock_mem_of_not_wea : (r.clock mode ena false a x).mem = r.mem := by
  cases ena <;> simp [clock]

end Ram

/-- Simple dual-port RAM. -/
structure DualRam (α : Type*) where
  mem : ℕ → α
  doutb : α

namespace DualRam

/-- One edge of both ports; `oob` is what port B reads outside the depth. -/
def clock (depth : ℕ) (wea : Bool) (addra : ℕ) (dina : α) (enb : Bool) (addrb : ℕ) (oob : α)
    (r : DualRam α) : DualRam α where
  mem := if wea ∧ addra < depth then Function.update r.mem addra dina else r.mem
  doutb := if enb then (if addrb < depth then r.mem addrb else oob) else r.doutb

variable {depth addra addrb : ℕ} {wea enb : Bool} {x oob : α} {r : DualRam α}

theorem clock_doutb_of_lt (h : addrb < depth) :
    (r.clock depth wea addra x true addrb oob).doutb = r.mem addrb := by
  simp [clock, h]

@[simp] theorem clock_mem_of_not_wea :
    (r.clock depth false addra x enb addrb oob).mem = r.mem := by
  simp [clock]

/-- A cell at another address is kept. -/
theorem clock_mem_of_ne {a : ℕ} (h : wea = true → a ≠ addra) :
    (r.clock depth wea addra x enb addrb oob).mem a = r.mem a := by
  show (if wea ∧ addra < depth then Function.update r.mem addra x else r.mem) a = r.mem a
  split_ifs with hw
  · exact Function.update_of_ne (h hw.1) ..
  · rfl

theorem clock_mem_of_wea (h : addra < depth) :
    (r.clock depth true addra x enb addrb oob).mem = Function.update r.mem addra x := by
  simp [clock, h]

end DualRam

end Sync
