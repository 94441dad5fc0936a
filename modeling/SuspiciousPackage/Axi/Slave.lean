import Mathlib.Data.Nat.Notation
import Mathlib.Tactic.Common

/-!
# Axi.Slave — the channels of an AXI4-Lite register slave

The handshake logic that `S00_AXI` and `obj_det_axi_slave_v1_0_S00_AXI` share line by line: one register per channel
signal, the address latches and the read data register.  What the registers behind it are is left to the user: `clock`
takes the word `regDataOut` selected for reading, `slvRegWren` says when a write takes effect.  The responses are
always `OKAY` and left out.
-/

namespace Axi

/-- What the master drives; `n` is the width of the addresses. -/
structure Master (n : ℕ) where
  awaddr : BitVec n
  awvalid : Bool
  wdata : BitVec 32
  wstrb : BitVec 4
  wvalid : Bool
  bready : Bool
  araddr : BitVec n
  arvalid : Bool
  rready : Bool
deriving DecidableEq, Repr

/-- The channel registers of the slave. -/
structure Slave (n : ℕ) where
  awready : Bool
  awEn : Bool
  awaddr : BitVec n
  wready : Bool
  bvalid : Bool
  arready : Bool
  araddr : BitVec n
  rvalid : Bool
  rdata : BitVec 32
deriving DecidableEq, Repr

namespace Slave

variable {n : ℕ}

/-- The values loaded by the reset. -/
def init : Slave n where
  awready := false
  awEn := true
  awaddr := 0
  wready := false
  bvalid := false
  arready := false
  araddr := 0
  rvalid := false
  rdata := 0

/-- A write takes effect at this edge. -/
def slvRegWren (m : Master n) (s : Slave n) : Bool := s.wready && m.wvalid && s.awready && m.awvalid

/-- A read takes effect at this edge. -/
def slvRegRden (m : Master n) (s : Slave n) : Bool := s.arready && m.arvalid && !s.rvalid

/-- A write address is accepted: it is latched, and `awready` rises. -/
def acceptsWrite (m : Master n) (s : Slave n) : Bool := !s.awready && m.awvalid && m.wvalid && s.awEn

/-- A read address is accepted: it is latched, and `arready` rises. -/
def acceptsRead (m : Master n) (s : Slave n) : Bool := !s.arready && m.arvalid

def clock (aresetn : Bool) (m : Master n) (regDataOut : BitVec 32) (s : Slave n) : Slave n :=
  if aresetn = false then init
  else
    { awready := s.acceptsWrite m
      awEn :=
        if s.acceptsWrite m then false
        else if m.bready && s.bvalid then true else s.awEn
      awaddr := if s.acceptsWrite m then m.awaddr else s.awaddr
      wready := !s.wready && m.wvalid && m.awvalid && s.awEn
      bvalid :=
        if s.awready && m.awvalid && !s.bvalid && s.wready && m.wvalid then true
        else if m.bready && s.bvalid then false else s.bvalid
      arready := s.acceptsRead m
      araddr := if s.acceptsRead m then m.araddr else s.araddr
      rvalid :=
        if s.arready && m.arvalid && !s.rvalid then true
        else if s.rvalid && m.rready then false else s.rvalid
      rdata := if s.slvRegRden m then regDataOut else s.rdata }

end Slave

/-! ## Byte strobes -/

section Strobes

variable {w : ℕ}

/-- The bits of byte `b`. -/
def byteMask (w b : ℕ) : BitVec w := BitVec.ofNat w 255 <<< (8 * b)

/-- Byte `b` of `wdata` written over `old`. -/
def writeByte (wdata old : BitVec w) (b : ℕ) : BitVec w :=
  (wdata &&& byteMask w b) ||| (old &&& ~~~ byteMask w b)

/-- The loop over the `n` byte enables. -/
def writeStrobes (n : ℕ) (wstrb : BitVec 4) (wdata old : BitVec w) : BitVec w :=
  (List.range n).foldl (fun r b => if wstrb.getLsbD b then writeByte wdata r b else r) old

theorem getLsbD_byteMask {b i : ℕ} (hi : i < w) :
    (byteMask w b).getLsbD i = decide (8 * b ≤ i ∧ i < 8 * b + 8) := by
  have h255 : Nat.testBit 255 (i - 8 * b) = decide (i - 8 * b < 8) := Nat.testBit_two_pow_sub_one 8 _
  unfold byteMask
  rw [BitVec.getLsbD_shiftLeft, BitVec.getLsbD_ofNat, h255]
  by_cases h1 : i < 8 * b
  · have hbelow : ¬(8 * b ≤ i ∧ i < 8 * b + 8) := by omega
    rw [decide_eq_false hbelow]
    simp [h1]
  · simp only [hi, h1, decide_true, decide_false, Bool.not_false, Bool.true_and]
    rw [decide_eq_true (by omega : i - 8 * b < w), Bool.true_and]
    exact decide_eq_decide.mpr ⟨fun h => ⟨by omega, by omega⟩, fun h => by omega⟩

theorem getLsbD_writeByte {wdata old : BitVec w} {b i : ℕ} (hi : i < w) :
    (writeByte wdata old b).getLsbD i = if i / 8 = b then wdata.getLsbD i else old.getLsbD i := by
  unfold writeByte
  rw [BitVec.getLsbD_or, BitVec.getLsbD_and, BitVec.getLsbD_and, BitVec.getLsbD_not, getLsbD_byteMask hi]
  by_cases h : i / 8 = b
  · rw [decide_eq_true (by omega), if_pos h]
    simp
  · rw [decide_eq_false (by omega), if_neg h]
    simp [hi]

/-- Bit by bit: byte `i / 8` is written iff it is enabled. -/
theorem getLsbD_writeStrobes {n : ℕ} {wstrb : BitVec 4} {wdata old : BitVec w} {i : ℕ} (hi : i < w) :
    (writeStrobes n wstrb wdata old).getLsbD i =
      if i / 8 < n ∧ wstrb.getLsbD (i / 8) = true then wdata.getLsbD i else old.getLsbD i := by
  unfold writeStrobes
  induction n with
  | zero => simp
  | succ n ih =>
    rw [List.range_succ, List.foldl_append, List.foldl_cons, List.foldl_nil]
    by_cases hn : wstrb.getLsbD n = true
    · rw [if_pos hn, getLsbD_writeByte hi, ih]
      by_cases hin : i / 8 = n
      · rw [if_pos hin, if_pos ⟨by omega, by rw [hin]; exact hn⟩]
      · rw [if_neg hin]
        by_cases hlt : i / 8 < n ∧ wstrb.getLsbD (i / 8) = true
        · rw [if_pos hlt, if_pos ⟨by omega, hlt.2⟩]
        · rw [if_neg hlt, if_neg fun h => hlt ⟨by omega, h.2⟩]
    · rw [if_neg hn, ih]
      by_cases hlt : i / 8 < n ∧ wstrb.getLsbD (i / 8) = true
      · rw [if_pos hlt, if_pos ⟨by omega, hlt.2⟩]
      · rw [if_neg hlt, if_neg fun h => hlt ⟨by
          have : i / 8 ≠ n := fun he => hn (he ▸ h.2)
          omega, h.2⟩]

/-- With all strobes the word is replaced. -/
theorem writeStrobes_full {wdata old : BitVec 32} : writeStrobes 4 0xF wdata old = wdata := by
  refine BitVec.eq_of_getLsbD_eq ?_
  intro i hi
  have hlt : i / 8 < 4 := by omega
  have hbit : ∀ b < 4, (0xF : BitVec 4).getLsbD b = true := by decide
  rw [getLsbD_writeStrobes hi, if_pos ⟨hlt, hbit _ hlt⟩]

end Strobes

end Axi
