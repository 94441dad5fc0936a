import SuspiciousPackage.Serial.TwoWire
import Mathlib.Data.BitVec
import Mathlib.Tactic.IntervalCases

/-!
# Config.I2CController — `I2C_Controller`

One transfer on the two wires of the camera: `SD_COUNTER` walks through the `case` of a write (three bytes, up to `39`)
or of a read (a message with the register, a second one for its value, up to `57`), one case at each `I2C_EN`.
`symbol` is what the wires show at each count; `holds_clock`, `i2cSclk_eq` and `i2cSdat_eq` say that they do.
-/

namespace SuspiciousPackage

open TwoWire

structure I2CController where
  i2cBit : Bool
  sclk : Bool
  sdCounter : BitVec 6
  ackW1 : Bool
  ackW2 : Bool
  ackW3 : Bool
  ackR1 : Bool
  ackR2 : Bool
  ackR3 : Bool
  endTransfer : Bool
  i2cRData : BitVec 8
deriving DecidableEq, Repr

namespace I2CController

structure In where
  i2cClk : Bool
  i2cEn : Bool
  i2cWData : BitVec 24
  wr : Bool
  go : Bool
  /-- The level of `I2C_SDAT` while the controller does not drive it. -/
  released : Bool
deriving DecidableEq, Repr

/-- The values loaded by `iRST_N`. -/
def init : I2CController where
  i2cBit := true
  sclk := true
  sdCounter := 0
  ackW1 := true
  ackW2 := true
  ackW3 := true
  ackR1 := true
  ackR2 := true
  ackR3 := true
  endTransfer := false
  i2cRData := 0

/-! ## The wires -/

/-- The counts at which `I2C_SCLK` follows `I2C_CLK`. -/
def clocked (wr : Bool) (c : ℕ) : Bool :=
  if wr then
    (5 ≤ c && c ≤ 12 || c == 14) || (16 ≤ c && c ≤ 23 || c == 25) || (27 ≤ c && c ≤ 34 || c == 36)
  else
    (5 ≤ c && c ≤ 12 || c == 14) || (16 ≤ c && c ≤ 23 || c == 25) || (33 ≤ c && c ≤ 40 || c == 42) ||
      (45 ≤ c && c ≤ 52 || c == 54)

/-- `SDO`: the counts at which the controller drives `I2C_SDAT`. -/
def sdo (wr : Bool) (c : ℕ) : Bool :=
  if wr then !((c == 13 || c == 14) || (c == 24 || c == 25) || (c == 35 || c == 36))
  else !((c == 13 || c == 14) || (c == 24 || c == 25) || (c == 41 || c == 42) || (44 ≤ c && c ≤ 52))

def i2cSclk (i : In) (s : I2CController) : Bool :=
  if i.go && clocked i.wr s.sdCounter.toNat then i.i2cClk else s.sclk

def i2cSdat (i : In) (s : I2CController) : Bool := if sdo i.wr s.sdCounter.toNat then s.i2cBit else i.released

def ack (wr : Bool) (s : I2CController) : Bool :=
  if wr then s.ackW1 || s.ackW2 || s.ackW3 else s.ackR1 || s.ackR2 || s.ackR3

/-! ## The registers -/

/-- `SD_COUNTER` at an edge with `I2C_EN`. -/
def nextCounter (i : In) (s : I2CController) : BitVec 6 :=
  if i.go = false ∨ s.endTransfer = true then 0
  else if s.sdCounter.toNat < 63 then s.sdCounter + 1
  else s.sdCounter

/-- I2C Write: ID-Address + SUB-Address + W-Data. -/
def write (w : BitVec 24) (sdat : Bool) (s : I2CController) : I2CController :=
  match s.sdCounter.toNat with
  | 0 =>
    { s with sclk := true, i2cBit := true, ackW1 := true, ackW2 := true, ackW3 := true, ackR1 := true, ackR2 := true,
             ackR3 := true, endTransfer := false }
  | 1 => { s with sclk := true, i2cBit := true, ackW1 := true, ackW2 := true, ackW3 := true, endTransfer := false }
  | 2 => { s with i2cBit := false }
  | 3 => { s with sclk := false }
  | 12 => { s with i2cBit := false }
  | 13 => { s with ackW1 := sdat }
  | 14 => { s with i2cBit := false }
  | 23 => { s with i2cBit := false }
  | 24 => { s with ackW2 := sdat }
  | 25 => { s with i2cBit := false }
  | 34 => { s with i2cBit := false }
  | 35 => { s with ackW3 := sdat }
  | 36 => { s with i2cBit := false }
  | 37 => { s with sclk := false, i2cBit := false }
  | 38 => { s with sclk := true }
  | 39 => { s with i2cBit := true, endTransfer := true }
  | c =>
    if 4 ≤ c ∧ c ≤ 11 then { s with i2cBit := w.getLsbD (27 - c) }
    else if 15 ≤ c ∧ c ≤ 22 then { s with i2cBit := w.getLsbD (30 - c) }
    else if 26 ≤ c ∧ c ≤ 33 then { s with i2cBit := w.getLsbD (33 - c) }
    else { s with i2cBit := true, sclk := true }

/-- `x[k] <= b` -/
def setBit (x : BitVec 8) (k : ℕ) (b : Bool) : BitVec 8 :=
  (x &&& ~~~(1#8 <<< k)) ||| ((BitVec.ofBool b).setWidth 8 <<< k)

/-- I2C Read: (ID-Address + SUB-Address) + (ID-Address + R-Data). -/
def read (w : BitVec 24) (sdat : Bool) (s : I2CController) : I2CController :=
  match s.sdCounter.toNat with
  | 0 =>
    { s with sclk := true, i2cBit := true, ackW1 := true, ackW2 := true, ackW3 := true, ackR1 := true, ackR2 := true,
             ackR3 := true, endTransfer := false }
  | 1 => { s with sclk := true, i2cBit := true, ackR1 := true, ackR2 := true, ackR3 := true, endTransfer := false }
  | 2 => { s with i2cBit := false }
  | 3 => { s with sclk := false }
  | 12 => { s with i2cBit := false }
  | 13 => { s with ackR1 := sdat }
  | 14 => { s with i2cBit := false }
  | 23 => { s with i2cBit := false }
  | 24 => { s with ackR2 := sdat }
  | 25 => { s with i2cBit := false }
  | 26 => { s with sclk := false, i2cBit := false }
  | 27 => { s with sclk := true }
  | 28 => { s with i2cBit := true }
  | 29 => { s with sclk := true, i2cBit := true }
  | 30 => { s with i2cBit := false }
  | 31 => { s with sclk := false }
  | 39 => { s with i2cBit := true }
  | 40 => { s with i2cBit := false }
  | 41 => { s with ackR3 := sdat }
  | 42 => { s with i2cBit := false }
  | 43 => { s with i2cBit := false }
  | 44 => { s with i2cBit := false }
  | 53 => { s with i2cBit := true }
  | 54 => { s with i2cBit := false }
  | 55 => { s with sclk := false, i2cBit := false }
  | 56 => { s with sclk := true }
  | 57 => { s with i2cBit := true, endTransfer := true }
  | c =>
    if 4 ≤ c ∧ c ≤ 11 then { s with i2cBit := w.getLsbD (27 - c) }
    else if 15 ≤ c ∧ c ≤ 22 then { s with i2cBit := w.getLsbD (30 - c) }
    else if 32 ≤ c ∧ c ≤ 38 then { s with i2cBit := w.getLsbD (55 - c) }
    else if 45 ≤ c ∧ c ≤ 52 then { s with i2cRData := setBit s.i2cRData (52 - c) sdat }
    else { s with i2cBit := true, sclk := true }

/-- Without `GO`. -/
def rest (s : I2CController) : I2CController :=
  { s with sclk := true, i2cBit := true, ackW1 := true, ackW2 := true, ackW3 := true, ackR1 := true, ackR2 := true,
           ackR3 := true, endTransfer := false }

/-- An edge of `iCLK`, with `iRST_N` high. -/
def clock (i : In) (s : I2CController) : I2CController :=
  if i.i2cEn then
    { (if i.go then
        if i.wr then s.write i.i2cWData (s.i2cSdat i) else s.read i.i2cWData (s.i2cSdat i)
      else s.rest) with sdCounter := s.nextCounter i }
  else s

/-! ## The symbols of a transfer -/

/-- What the wires show at count `c` of a write. -/
def writeSymbol (w : BitVec 24) (c : ℕ) : Symbol :=
  if c ≤ 2 ∨ c = 40 then .idle
  else if c = 3 then .start
  else if 5 ≤ c ∧ c ≤ 12 then .pulse (some (w.getLsbD (28 - c)))
  else if 16 ≤ c ∧ c ≤ 23 then .pulse (some (w.getLsbD (31 - c)))
  else if 27 ≤ c ∧ c ≤ 34 then .pulse (some (w.getLsbD (34 - c)))
  else if c = 14 ∨ c = 25 ∨ c = 36 then .pulse none
  else if c = 39 then .rise
  else .low

/-- What the wires show at count `c` of a read. -/
def readSymbol (w : BitVec 24) (c : ℕ) : Symbol :=
  if c ≤ 2 ∨ c = 29 ∨ c = 30 ∨ c = 58 then .idle
  else if c = 3 ∨ c = 31 then .start
  else if 5 ≤ c ∧ c ≤ 12 then .pulse (some (w.getLsbD (28 - c)))
  else if 16 ≤ c ∧ c ≤ 23 then .pulse (some (w.getLsbD (31 - c)))
  else if 33 ≤ c ∧ c ≤ 39 then .pulse (some (w.getLsbD (56 - c)))
  else if c = 40 ∨ c = 54 then .pulse (some true)
  else if c = 14 ∨ c = 25 ∨ c = 42 ∨ (45 ≤ c ∧ c ≤ 52) then .pulse none
  else if c = 28 ∨ c = 57 then .rise
  else .low

def symbol (wr : Bool) (w : BitVec 24) (c : ℕ) : Symbol := if wr then writeSymbol w c else readSymbol w c

/-- The count at which a transfer has ended. -/
def last (wr : Bool) : ℕ := if wr then 40 else 58

/-- `SCLK` while the wires show a symbol. -/
def sclkOf : Symbol → Bool
  | .idle | .start | .rise => true
  | .low | .pulse _ => false

/-- `I2C_BIT` while the wires show a symbol. -/
def bitOf : Symbol → Bool
  | .idle => true
  | .pulse b => b.getD false
  | .start | .low | .rise => false

/-- The controller at count `c` of a transfer of `w`. -/
structure Holds (wr : Bool) (w : BitVec 24) (c : ℕ) (s : I2CController) : Prop where
  sdCounter : s.sdCounter.toNat = c
  sclk : s.sclk = sclkOf (symbol wr w c)
  i2cBit : s.i2cBit = bitOf (symbol wr w c)
  endTransfer : s.endTransfer = decide (c = last wr)

/-! ### What each case does

At each count a register is either assigned or left as it was, and then the two symbols ask the same of it. -/

section Cases

variable {s : I2CController} {c : ℕ} (w : BitVec 24) (b : Bool)

theorem eq_of_literal {x y z : Bool} (v : Bool) (h : x = y) (hy : y = v) (hz : z = v) : x = z := by
  rw [h, hy, hz]

theorem write_sclk (h : Holds true w c s) (hc : c < 40) : (s.write w b).sclk = sclkOf (writeSymbol w (c + 1)) := by
  have hs : s.sclk = sclkOf (writeSymbol w c) := h.sclk
  unfold write
  rw [h.sdCounter]
  clear h
  interval_cases c <;> first | exact eq_of_literal false hs rfl rfl | exact eq_of_literal true hs rfl rfl | rfl

theorem write_i2cBit (h : Holds true w c s) (hc : c < 40) : (s.write w b).i2cBit = bitOf (writeSymbol w (c + 1)) := by
  have hs : s.i2cBit = bitOf (writeSymbol w c) := h.i2cBit
  unfold write
  rw [h.sdCounter]
  clear h
  interval_cases c <;> first | exact eq_of_literal false hs rfl rfl | exact eq_of_literal true hs rfl rfl | rfl

theorem write_endTransfer (h : Holds true w c s) (hc : c < 40) : (s.write w b).endTransfer = decide (c + 1 = 40) := by
  have hs : s.endTransfer = decide (c = 40) := h.endTransfer
  unfold write
  rw [h.sdCounter]
  clear h
  interval_cases c <;> first | exact eq_of_literal false hs rfl rfl | rfl

theorem read_sclk (h : Holds false w c s) (hc : c < 58) : (s.read w b).sclk = sclkOf (readSymbol w (c + 1)) := by
  have hs : s.sclk = sclkOf (readSymbol w c) := h.sclk
  unfold read
  rw [h.sdCounter]
  clear h
  interval_cases c <;> first | exact eq_of_literal false hs rfl rfl | exact eq_of_literal true hs rfl rfl | rfl

theorem read_i2cBit (h : Holds false w c s) (hc : c < 58) : (s.read w b).i2cBit = bitOf (readSymbol w (c + 1)) := by
  have hs : s.i2cBit = bitOf (readSymbol w c) := h.i2cBit
  unfold read
  rw [h.sdCounter]
  clear h
  interval_cases c <;> first | exact eq_of_literal false hs rfl rfl | exact eq_of_literal true hs rfl rfl | rfl

theorem read_endTransfer (h : Holds false w c s) (hc : c < 58) : (s.read w b).endTransfer = decide (c + 1 = 58) := by
  have hs : s.endTransfer = decide (c = 58) := h.endTransfer
  unfold read
  rw [h.sdCounter]
  clear h
  interval_cases c <;> first | exact eq_of_literal false hs rfl rfl | rfl

end Cases

/-! ### The symbols one after the other -/

section Symbols

variable {c : ℕ} {wr : Bool} (w : BitVec 24)

theorem legal_symbol (hc : c < last wr) : Symbol.Legal (symbol wr w c) (symbol wr w (c + 1)) = true := by
  cases wr with
  | true =>
    replace hc : c < 40 := hc
    interval_cases c <;> rfl
  | false =>
    replace hc : c < 58 := hc
    interval_cases c <;> rfl

/-- A symbol is a pulse, with some bit. -/
def isPulse : Symbol → Bool
  | .pulse _ => true
  | _ => false

/-- The pulses are at the counts at which the clock line follows the slower clock. -/
theorem isPulse_symbol (hc : c ≤ last wr) : isPulse (symbol wr w c) = clocked wr c := by
  cases wr with
  | true =>
    replace hc : c < 41 := Nat.lt_succ_of_le hc
    interval_cases c <;> first | exact eq_of_literal false rfl rfl rfl | exact eq_of_literal true rfl rfl rfl
  | false =>
    replace hc : c < 59 := Nat.lt_succ_of_le hc
    interval_cases c <;> first | exact eq_of_literal false rfl rfl rfl | exact eq_of_literal true rfl rfl rfl

/-- Where the symbol says what the data line shows, the controller drives it. -/
theorem sdo_of_sda (hc : c ≤ last wr) : (symbol wr w c).sda.isNone || sdo wr c := by
  cases wr with
  | true =>
    replace hc : c < 41 := Nat.lt_succ_of_le hc
    interval_cases c <;> rfl
  | false =>
    replace hc : c < 59 := Nat.lt_succ_of_le hc
    interval_cases c <;> rfl

end Symbols

/-! ### A transfer at its edges -/

section Steps

variable {i : In} {s : I2CController} {wr : Bool} {w : BitVec 24} {c : ℕ}

/-- **One count of a transfer.** -/
theorem holds_clock (h : Holds wr w c s) (hen : i.i2cEn = true) (hgo : i.go = true) (hwr : i.wr = wr)
    (hw : i.i2cWData = w) (hc : c < last wr) : Holds wr w (c + 1) (s.clock i) := by
  have hlast : last wr ≤ 58 := by cases wr <;> decide
  have hcnt : (s.nextCounter i).toNat = c + 1 := by
    have hne : ¬ (i.go = false ∨ s.endTransfer = true) := by
      rw [hgo, h.endTransfer, decide_eq_false (by omega)]
      simp
    unfold nextCounter
    rw [if_neg hne, if_pos (by rw [h.sdCounter]; omega), BitVec.toNat_add, h.sdCounter]
    show (c + 1) % 64 = c + 1
    omega
  unfold clock
  rw [if_pos hen, if_pos hgo, hwr, hw]
  cases wr with
  | true => exact ⟨hcnt, write_sclk w _ h hc, write_i2cBit w _ h hc, write_endTransfer w _ h hc⟩
  | false => exact ⟨hcnt, read_sclk w _ h hc, read_i2cBit w _ h hc, read_endTransfer w _ h hc⟩

/-- `I2C_SCLK` is the clock line of the symbol. -/
theorem i2cSclk_eq (h : Holds wr w c s) (hgo : i.go = true) (hwr : i.wr = wr) (hc : c ≤ last wr) {ph : Phase}
    (hclk : i.i2cClk = decide (ph = .high)) : s.i2cSclk i = (symbol wr w c).scl ph := by
  have hp := isPulse_symbol w hc
  unfold i2cSclk
  rw [hgo, hwr, h.sdCounter, ← hp, hclk, h.sclk]
  cases symbol wr w c <;> rfl

/-- `I2C_SDAT` is the data line of the symbol. -/
theorem i2cSdat_eq (h : Holds wr w c s) (hwr : i.wr = wr) (hc : c ≤ last wr) :
    ∀ v ∈ (symbol wr w c).sda, s.i2cSdat i = v := by
  intro v hv
  have hd := sdo_of_sda w hc
  rw [hv, Option.isNone_some, Bool.false_or] at hd
  unfold i2cSdat
  rw [hwr, h.sdCounter, hd, if_pos rfl, h.i2cBit]
  revert hv
  cases symbol wr w c <;> rintro ⟨⟩ <;> rfl

end Steps

/-! ### The acknowledgements -/

section Acks

variable {i : In} {s : I2CController} {wr : Bool} {w : BitVec 24} {c : ℕ}

def acks (wr : Bool) (s : I2CController) : Bool × Bool × Bool :=
  if wr then (s.ackW1, s.ackW2, s.ackW3) else (s.ackR1, s.ackR2, s.ackR3)

/-- The count at which the third acknowledgement is sampled. -/
def third (wr : Bool) : ℕ := if wr then 35 else 41

/-- The counts at which an acknowledgement is sampled. -/
def IsAck (wr : Bool) (c : ℕ) : Prop := c = 13 ∨ c = 24 ∨ c = third wr

instance (wr : Bool) (c : ℕ) : Decidable (IsAck wr c) := inferInstanceAs (Decidable (_ ∨ _))

theorem write_acks (b : Bool) (hcnt : s.sdCounter.toNat = c) (hc : c < 40) :
    acks true (s.write w b) = if c ≤ 1 then (true, true, true) else if c = 13 then (b, s.ackW2, s.ackW3)
      else if c = 24 then (s.ackW1, b, s.ackW3) else if c = 35 then (s.ackW1, s.ackW2, b)
      else (s.ackW1, s.ackW2, s.ackW3) := by
  unfold write
  rw [hcnt]
  clear hcnt
  interval_cases c <;> rfl

theorem read_acks (b : Bool) (hcnt : s.sdCounter.toNat = c) (hc : c < 58) :
    acks false (s.read w b) = if c ≤ 1 then (true, true, true) else if c = 13 then (b, s.ackR2, s.ackR3)
      else if c = 24 then (s.ackR1, b, s.ackR3) else if c = 41 then (s.ackR1, s.ackR2, b)
      else (s.ackR1, s.ackR2, s.ackR3) := by
  unfold read
  rw [hcnt]
  clear hcnt
  interval_cases c <;> rfl

/-- At count `c` the levels sampled so far are in the registers. -/
inductive Sampled (wr : Bool) (c : ℕ) : List Bool → Bool × Bool × Bool → Prop
  | none (h : c ≤ 13) : Sampled wr c [] (true, true, true)
  | one (x : Bool) (h : 13 < c) (h' : c ≤ 24) : Sampled wr c [x] (x, true, true)
  | two (x y : Bool) (h : 24 < c) (h' : c ≤ third wr) : Sampled wr c [x, y] (x, y, true)
  | three (x y z : Bool) (h : third wr < c) : Sampled wr c [x, y, z] (x, y, z)

theorem acks_clock (h : Holds wr w c s) (hen : i.i2cEn = true) (hgo : i.go = true) (hwr : i.wr = wr) (hc : c < last wr) :
    acks wr (s.clock i) = if c ≤ 1 then (true, true, true) else if c = 13 then (s.i2cSdat i, (acks wr s).2)
      else if c = 24 then ((acks wr s).1, s.i2cSdat i, (acks wr s).2.2)
      else if c = third wr then ((acks wr s).1, (acks wr s).2.1, s.i2cSdat i) else acks wr s := by
  unfold clock
  rw [if_pos hen, if_pos hgo, hwr]
  cases wr with
  | true => exact write_acks (w := i.i2cWData) (s.i2cSdat i) h.sdCounter hc
  | false => exact read_acks (w := i.i2cWData) (s.i2cSdat i) h.sdCounter hc

theorem sampled_clock {l : List Bool} (h : Holds wr w c s) (hl : Sampled wr c l (acks wr s)) (hen : i.i2cEn = true)
    (hgo : i.go = true) (hwr : i.wr = wr) (hc : c < last wr) :
    Sampled wr (c + 1) (if IsAck wr c then l ++ [s.i2cSdat i] else l) (acks wr (s.clock i)) := by
  have hthird : 24 < third wr := by cases wr <;> decide
  rw [acks_clock h hen hgo hwr hc]
  generalize acks wr s = a at hl
  cases hl with
  | none h1 =>
    rcases Nat.lt_or_eq_of_le h1 with h2 | rfl
    · rw [if_neg (show ¬ IsAck wr c by unfold IsAck; omega)]
      split_ifs <;> first | omega | exact .none (by omega)
    · exact .one _ (by omega) (by omega)
  | one x h1 h2 =>
    rcases Nat.lt_or_eq_of_le h2 with h3 | rfl
    · rw [if_neg (show ¬ IsAck wr c by unfold IsAck; omega)]
      split_ifs <;> first | omega | exact .one x (by omega) (by omega)
    · exact .two x _ (by omega) (by omega)
  | two x y h1 h2 =>
    rcases Nat.lt_or_eq_of_le h2 with h3 | rfl
    · rw [if_neg (show ¬ IsAck wr c by unfold IsAck; omega)]
      split_ifs <;> first | omega | exact .two x y (by omega) (by omega)
    · rw [if_pos (show IsAck wr (third wr) from Or.inr (Or.inr rfl))]
      split_ifs <;> first | omega | exact .three x y _ (by omega)
  | three x y z h1 =>
    rw [if_neg (show ¬ IsAck wr c by unfold IsAck; omega)]
    split_ifs <;> first | omega | exact .three x y z (by omega)

/-- At the end of a transfer `ACK` is low when all three levels were. -/
theorem ack_of_sampled {l : List Bool} (hl : Sampled wr (last wr) l (acks wr s)) : ack wr s = l.any id ∧ l.length = 3 := by
  have hlast : third wr < last wr ∧ 24 < third wr := by cases wr <;> decide
  have hack : ack wr s = ((acks wr s).1 || (acks wr s).2.1 || (acks wr s).2.2) := by cases wr <;> rfl
  rw [hack]
  generalize acks wr s = a at hl
  cases hl with
  | none h => omega
  | one x h h' => omega
  | two x y h h' => omega
  | three x y z h =>
    refine ⟨?_, rfl⟩
    cases x <;> cases y <;> cases z <;> rfl

end Acks

/-! ## What a transfer carries -/

/-- The line at count `c` of a transfer that began on the line `e`. -/
def lineAt (e : Line) (wr : Bool) (w : BitVec 24) : ℕ → Line
  | 0 => e
  | c + 1 => (lineAt e wr w c).turn (symbol wr w c) (symbol wr w (c + 1))

/-- `n` bits of a word, from bit `k` down. -/
def bitsOf (w : BitVec 24) (k n : ℕ) : List (Option Bool) := (List.range n).map fun j => some (w.getLsbD (k - j))

/-- The messages of a transfer of `w`: with a write the three bytes and the bits of the other side after each; with a
read the first two bytes, and then the address for reading with a byte of the other side. -/
def frames (wr : Bool) (w : BitVec 24) : List (List (Option Bool)) :=
  if wr then [bitsOf w 23 8 ++ [none] ++ bitsOf w 15 8 ++ [none] ++ bitsOf w 7 8 ++ [none]]
  else
    [bitsOf w 23 8 ++ [none] ++ bitsOf w 15 8 ++ [none],
      bitsOf w 23 7 ++ [some true] ++ [none] ++ List.replicate 8 none ++ [some true]]

/-- Between a start and a stop. -/
def isInner : Symbol → Bool
  | .idle | .rise => false
  | _ => true

/-- Within a message only bits are added. -/
theorem lineAt_inner (e : Line) (wr : Bool) (w : BitVec 24) {a n : ℕ}
    (h : (List.range' a n).all fun c => isInner (symbol wr w c)) :
    lineAt e wr w (a + n) = ⟨(lineAt e wr w a).bits.map (· ++ (List.range' a n).flatMap fun c =>
      Line.carried (symbol wr w c)), (lineAt e wr w a).messages⟩ := by
  induction n with
  | zero =>
    have hnil : (lineAt e wr w a).bits.map (· ++ ([] : List (Option Bool))) = (lineAt e wr w a).bits := by simp
    show lineAt e wr w a = ⟨(lineAt e wr w a).bits.map (· ++ []), _⟩
    rw [hnil]
  | succ n ih =>
    rw [List.range'_1_concat, List.all_append, Bool.and_eq_true] at h
    have hin : isInner (symbol wr w (a + n)) = true := by simpa using h.2
    have hturn : (lineAt e wr w (a + n)).turn (symbol wr w (a + n)) (symbol wr w (a + n + 1)) = _ :=
      Line.turn_eq _ (by intro hs; rw [hs] at hin; cases hin) (by intro hs; rw [hs] at hin; cases hin)
    show (lineAt e wr w (a + n)).turn (symbol wr w (a + n)) (symbol wr w (a + n + 1)) = _
    rw [hturn, ih h.1, List.range'_1_concat, List.flatMap_append]
    simp [Function.comp_def]

theorem lineAt_write (w : BitVec 24) (ms : List (List (Option Bool))) :
    lineAt ⟨none, ms⟩ true w 40 = ⟨none, ms ++ frames true w⟩ := by
  have hstart : lineAt ⟨none, ms⟩ true w 3 = ⟨some [], ms ++ []⟩ := rfl
  have hinner : lineAt ⟨none, ms⟩ true w 39 = ⟨some (bitsOf w 23 8 ++ [none] ++ bitsOf w 15 8 ++ [none] ++
      bitsOf w 7 8 ++ [none]), ms ++ []⟩ := by
    rw [show 39 = 3 + 36 from rfl, lineAt_inner _ _ _ rfl, hstart]
    rfl
  show (lineAt ⟨none, ms⟩ true w 39).turn .rise .idle = _
  rw [hinner, List.append_nil]
  rfl

theorem lineAt_read (w : BitVec 24) (ms : List (List (Option Bool))) :
    lineAt ⟨none, ms⟩ false w 58 = ⟨none, ms ++ frames false w⟩ := by
  have hstart : lineAt ⟨none, ms⟩ false w 3 = ⟨some [], ms ++ []⟩ := rfl
  have hfirst : lineAt ⟨none, ms⟩ false w 28 = ⟨some (bitsOf w 23 8 ++ [none] ++ bitsOf w 15 8 ++ [none]), ms ++ []⟩ := by
    rw [show 28 = 3 + 25 from rfl, lineAt_inner _ _ _ rfl, hstart]
    rfl
  have hagain : lineAt ⟨none, ms⟩ false w 31 = ⟨some [], ms ++ [bitsOf w 23 8 ++ [none] ++ bitsOf w 15 8 ++ [none]] ++ []⟩ := by
    show (((lineAt ⟨none, ms⟩ false w 28).turn .rise .idle).turn .idle .idle).turn .idle .start = _
    rw [hfirst, List.append_nil]
    rfl
  have hsecond : lineAt ⟨none, ms⟩ false w 57 = ⟨some (bitsOf w 23 7 ++ [some true] ++ [none] ++ List.replicate 8 none ++
      [some true]), ms ++ [bitsOf w 23 8 ++ [none] ++ bitsOf w 15 8 ++ [none]] ++ []⟩ := by
    rw [show 57 = 31 + 26 from rfl, lineAt_inner _ _ _ rfl, hagain]
    rfl
  show (lineAt ⟨none, ms⟩ false w 57).turn .rise .idle = _
  rw [hsecond, List.append_nil]
  show (⟨none, ms ++ [_] ++ [_]⟩ : Line) = _
  rw [List.append_assoc]
  rfl

/-- **A transfer carries its messages.** -/
theorem lineAt_last (wr : Bool) (w : BitVec 24) (ms : List (List (Option Bool))) :
    lineAt ⟨none, ms⟩ wr w (last wr) = ⟨none, ms ++ frames wr w⟩ := by
  cases wr with
  | true => exact lineAt_write w ms
  | false => exact lineAt_read w ms

theorem messages_lineAt_mono (e : Line) (wr : Bool) (w : BitVec 24) {c c' : ℕ} (h : c ≤ c') :
    (lineAt e wr w c).messages <+: (lineAt e wr w c').messages := by
  induction c', h using Nat.le_induction with
  | base => exact List.prefix_refl _
  | succ c' h ih => exact ih.trans (Line.messages_prefix_turn _ _ _)

end I2CController

end SuspiciousPackage
