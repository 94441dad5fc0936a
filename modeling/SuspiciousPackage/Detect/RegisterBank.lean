import SuspiciousPackage.Axi.Memory
import SuspiciousPackage.Detect.AxiTop

/-!
# Detect.RegisterBank — the register bank of the detector as a memory

The registers `CONFIG1`, `DETECTION_THRES`, `STATIC_THRES`, `SUSPICION_THRES` and the spare one are five words of a
byte-addressed memory, whatever is done at the other addresses and on the status inputs (`register_bank`).
-/

namespace SuspiciousPackage

open Sync

namespace ObjDetAxiSlave

variable {m : ℕ → Axi.Master 5} {st : ℕ → Status} {t k : ℕ}

/-- Register `k`, as `case` selects it. -/
def reg (s : ObjDetAxiSlave) : ℕ → BitVec 32
  | 0 => s.slvReg0
  | 1 => s.slvReg1
  | 2 => s.slvReg2
  | 3 => s.slvReg3
  | 4 => s.slvReg4
  | 5 => s.slvReg5
  | _ => 0

/-- The registers that only the master writes: all but `STAT1`. -/
def IsMemory (k : ℕ) : Prop := k ≤ 5 ∧ k ≠ 1

instance (k : ℕ) : Decidable (IsMemory k) := inferInstanceAs (Decidable (_ ∧ _))

/-- The run from reset. -/
def runOn (m : ℕ → Axi.Master 5) (st : ℕ → Status) : ℕ → ObjDetAxiSlave :=
  run (fun (i : Axi.Master 5 × Status) s => s.clock true i.1 i.2) init fun t => (m t, st t)

/-- The channels of the slave along the run. -/
def channels (m : ℕ → Axi.Master 5) (st : ℕ → Status) (t : ℕ) : Axi.Slave 5 := (runOn m st t).axi

theorem runOn_succ (t : ℕ) : runOn m st (t + 1) = (runOn m st t).clock true (m t) (st t) := rfl

/-- The slave runs under the channel rules. -/
theorem runs (m : ℕ → Axi.Master 5) (st : ℕ → Status) : Axi.Runs m (channels m st) fun t => (runOn m st t).regDataOut where
  zero := rfl
  succ _ := rfl

theorem regDataOut_eq (s : ObjDetAxiSlave) : s.regDataOut = s.reg (regSel s.axi.araddr) := rfl

/-- The register of an address is its word. -/
theorem regSel_eq (addr : BitVec 5) : regSel addr = addr.toNat / 4 := by
  have hlt := addr.isLt
  unfold regSel
  rw [BitVec.extractLsb'_toNat, Nat.shiftRight_eq_div_pow]
  omega

/-- The clocked process of a register that only the master writes. -/
theorem reg_clock (hk : IsMemory k) {s : ObjDetAxiSlave} {i : Axi.Master 5} {x : Status} :
    (s.clock true i x).reg k = s.writeReg i k (s.reg k) := by
  obtain ⟨h5, h1⟩ := hk
  rcases (by omega : k = 0 ∨ k = 2 ∨ k = 3 ∨ k = 4 ∨ k = 5) with rfl | rfl | rfl | rfl | rfl <;> rfl

/-- The reset values as the contents of a memory. -/
def resetMemory (a : ℕ) : BitVec 8 := Axi.byte (init.reg (a / 4)) (a % 4)

theorem holdsWord_reset (k : ℕ) : Axi.HoldsWord resetMemory k (init.reg k) := by
  intro b hb
  unfold resetMemory
  rw [show (4 * k + b) / 4 = k by omega, show (4 * k + b) % 4 = b by omega]

/-- **The registers hold the memory that the writes handed over have left.** -/
theorem holdsWord_run (hd : Axi.Interleaved m (channels m st)) (hk : IsMemory k) (t : ℕ) :
    Axi.HoldsWord (Axi.memory m (channels m st) resetMemory t) k ((runOn m st t).reg k) := by
  induction t with
  | zero => exact holdsWord_reset k
  | succ t ih =>
    rw [runOn_succ, reg_clock hk]
    unfold writeReg
    by_cases hw : Axi.AwFires m (channels m st) t ∧ Axi.WFires m (channels m st) t
    · have haddr : (runOn m st t).axi.awaddr = (m t).awaddr := Axi.awaddr_of_write hd (runs m st) hw.1
      have hwren : (runOn m st t).axi.slvRegWren (m t) = true := Axi.slvRegWren_iff.mpr hw
      have hsel : (runOn m st t).Writes (m t) k ↔ (Axi.offered m t).addr.toNat / 4 = k := by
        unfold Writes
        rw [haddr, regSel_eq]
        exact and_iff_right hwren
      rw [Axi.memory_of_write hw]
      by_cases hkw : (Axi.offered m t).addr.toNat / 4 = k
      · rw [if_pos (hsel.mpr hkw)]
        exact ih.write hkw
      · rw [if_neg fun h => hkw (hsel.mp h)]
        exact ih.write_of_ne hkw
    · rw [Axi.memory_of_not_write hw, if_neg fun h => hw (Axi.slvRegWren_iff.mp h.1)]
      exact ih

/-- **The register bank behaves as memory.**  For every master that holds VALID until READY and has at most one read
outstanding, its writes and reads interleaved in any way, and every status input: address and data of a write are handed
over together, and each such write is answered by exactly one beat; every register but `STAT1` holds in every cycle its
reset value with the writes handed over so far merged in order, byte by byte; and each read is answered by exactly one
beat, which carries the register as it was in the cycle in which the address was handed over. -/
theorem register_bank (m : ℕ → Axi.Master 5) (st : ℕ → Status) (hd : Axi.Interleaved m (channels m st)) :
    (∀ t, Axi.AwFires m (channels m st) t ↔ Axi.WFires m (channels m st) t) ∧
    Answered (Axi.AwFires m (channels m st)) (fun t => (channels m st t).bvalid) (fun t => (m t).bready)
      (fun _ => ()) (fun _ => ()) ∧
    (∀ t k, IsMemory k →
      Axi.HoldsWord (Axi.memory m (channels m st) resetMemory t) k ((runOn m st t).reg k)) ∧
    Answered (Axi.ArFires m (channels m st)) (fun t => (channels m st t).rvalid) (fun t => (m t).rready)
      (fun t => (channels m st t).rdata) fun t => (runOn m st t).reg (regSel (m t).araddr) := by
  refine ⟨Axi.awFires_iff_wFires hd (runs m st), Axi.writes_answered hd (runs m st),
    fun t k hk => holdsWord_run hd hk t, ?_⟩
  obtain ⟨⟨hoffered, hasked⟩, haddr⟩ := Axi.reads_answered hd (runs m st)
  have hword : ∀ q, Axi.ArFires m (channels m st) q →
      (runOn m st q).regDataOut = (runOn m st q).reg (regSel (m q).araddr) := by
    intro q hq
    have ha : (runOn m st q).axi.araddr = (m q).araddr := haddr q hq
    rw [regDataOut_eq, ha]
  refine ⟨?_, ?_⟩
  · intro k q hk p hqp hlow
    obtain ⟨h1, h2, h3⟩ := hoffered k q hk p hqp hlow
    exact ⟨h1, h2.trans (hword q hk.1), h3⟩
  · intro k p hp
    obtain ⟨q, hqp, hk, hlow, h2⟩ := hasked k p hp
    exact ⟨q, hqp, hk, hlow, h2.trans (hword q hk.1)⟩

/-! ## A master with one write and one read -/

/-- The write `w` is put on the channels in the cycles `0` and `1`, the read address `r` in the cycles `b` and `b + 1`. -/
def onceMaster (w : Axi.Write 5) (r : BitVec 5) (b t : ℕ) : Axi.Master 5 where
  awaddr := w.addr
  awvalid := decide (t < 2)
  wdata := w.data
  wstrb := w.strb
  wvalid := decide (t < 2)
  bready := true
  araddr := r
  arvalid := decide (t = b ∨ t = b + 1)
  rready := true

def noStatus (_ : ℕ) : Status := ⟨false, false, 0⟩

/-- It is disciplined when both are taken in their second cycle. -/
theorem interleaved_onceMaster {w : Axi.Write 5} {r : BitVec 5} {b : ℕ} {s : ℕ → Axi.Slave 5}
    (hready : (s 1).awready = true ∧ (s 1).wready = true ∧ (s (b + 1)).arready = true)
    (hfirst : Nat.count (Axi.ArFires (onceMaster w r b) s) b = Nat.count (Axi.RFires (onceMaster w r b) s) (b + 1))
    (hsecond : Nat.count (Axi.ArFires (onceMaster w r b) s) (b + 1) =
      Nat.count (Axi.RFires (onceMaster w r b) s) (b + 1 + 1)) : Axi.Interleaved (onceMaster w r b) s := by
  obtain ⟨h1, h2, h3⟩ := hready
  refine ⟨?_, ?_, ?_, ?_⟩
  · intro t hv hlow
    have ht : t < 2 := of_decide_eq_true hv
    rcases (by omega : t = 0 ∨ t = 1) with rfl | rfl
    · exact ⟨rfl, rfl⟩
    · exact absurd (h1.symm.trans hlow) (by simp)
  · intro t hv hlow
    have ht : t < 2 := of_decide_eq_true hv
    rcases (by omega : t = 0 ∨ t = 1) with rfl | rfl
    · exact ⟨rfl, rfl, rfl⟩
    · exact absurd (h2.symm.trans hlow) (by simp)
  · intro t hv hlow
    rcases of_decide_eq_true hv with rfl | rfl
    · exact ⟨decide_eq_true (Or.inr rfl), rfl⟩
    · exact absurd (h3.symm.trans hlow) (by simp)
  · intro t hv
    rcases of_decide_eq_true hv with rfl | rfl
    · exact hfirst
    · exact hsecond

/-- Byte `0` of `DETECTION_THRES` is written in cycle `1`, the register read in cycle `4`. -/
def thresMaster : ℕ → Axi.Master 5 := onceMaster ⟨8, 7, 1⟩ 8 3

theorem interleaved_thresMaster : Axi.Interleaved thresMaster (channels thresMaster noStatus) :=
  interleaved_onceMaster (by decide +kernel) (by decide +kernel) (by decide +kernel)

/-- The read returns the default `0x12C0` with its low byte replaced. -/
theorem register_bank_thresMaster : (channels thresMaster noStatus 5).rdata = 0x1207 := by
  obtain ⟨-, -, -, hoffered, -⟩ := register_bank thresMaster noStatus interleaved_thresMaster
  have hread : Kth (Axi.ArFires thresMaster (channels thresMaster noStatus)) 0 4 := ⟨by decide +kernel, by decide +kernel⟩
  obtain ⟨-, hdata, -⟩ := hoffered 0 4 hread 5 (by omega) fun u h1 h2 => by omega
  rw [hdata]
  decide +kernel

end ObjDetAxiSlave

end SuspiciousPackage
