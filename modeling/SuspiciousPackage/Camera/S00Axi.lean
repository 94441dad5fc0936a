import SuspiciousPackage.Axi.Discipline
import SuspiciousPackage.Camera.Downsampler
import SuspiciousPackage.Sync.Ram

/-!
# Camera.S00Axi — reading the downsampled frame over AXI

`S00Axi` is the register slave of `ov7670_top` and `Readout` the slave wired to `downsampled_frame_buffer`, whose
write port is driven from outside.  A pixel is asked for by writing its address to register `0` and reading register
`1`.  `pixel_read_back`: with one transaction outstanding the answer is that pixel.
-/

namespace SuspiciousPackage

open Sync

/-! ## `S00_AXI` -/

/-- Channel registers and the slave registers.  The slave keeps the low 4 bits of the 32-bit addresses. -/
structure S00Axi where
  axi : Axi.Slave 4
  /-- bram_addr -/
  slvReg0 : BitVec 32
  /-- data_value -/
  slvReg1 : BitVec 16
  slvReg2 : Bool
  slvReg3 : Bool
deriving DecidableEq, Repr

namespace S00Axi

def init : S00Axi where
  axi := Axi.Slave.init
  slvReg0 := 0
  slvReg1 := 0
  slvReg2 := false
  slvReg3 := false

/-- The register an address selects. -/
def regSel (addr : BitVec 4) : ℕ := (addr.extractLsb' 2 2).toNat

/-- `bram_addr` on the 17-bit address of the buffer. -/
def bramAddr (s : S00Axi) : BitVec 17 := s.slvReg0.setWidth 17

/-- The word selected for reading. -/
def regDataOut (s : S00Axi) : BitVec 32 :=
  match regSel s.axi.araddr with
  | 0 => s.slvReg0
  | 1 => s.slvReg1.setWidth 32
  | 2 => (BitVec.ofBool s.slvReg2).setWidth 32
  | 3 => (BitVec.ofBool s.slvReg3).setWidth 32
  | _ => 0

/-- Register `k` is written at this edge. -/
def Writes (m : Axi.Master 4) (k : ℕ) (s : S00Axi) : Prop :=
  s.axi.slvRegWren m = true ∧ regSel s.axi.awaddr = k

instance (m : Axi.Master 4) (k : ℕ) (s : S00Axi) : Decidable (s.Writes m k) :=
  inferInstanceAs (Decidable (_ ∧ _))

def clock (aresetn : Bool) (m : Axi.Master 4) (bramData : BitVec 16) (s : S00Axi) : S00Axi :=
  if aresetn = false then init
  else
    { axi := s.axi.clock aresetn m s.regDataOut
      slvReg0 := if s.Writes m 0 then Axi.writeStrobes 4 m.wstrb m.wdata s.slvReg0 else s.slvReg0
      -- the buffer is sampled in every cycle without a write
      slvReg1 :=
        if s.axi.slvRegWren m then
          if s.Writes m 1 then Axi.writeStrobes 2 m.wstrb (m.wdata.setWidth 16) s.slvReg1 else s.slvReg1
        else bramData
      slvReg2 := if s.Writes m 2 ∧ m.wstrb.getLsbD 0 = true then m.wdata.getLsbD 0 else s.slvReg2
      slvReg3 := if s.Writes m 3 ∧ m.wstrb.getLsbD 0 = true then m.wdata.getLsbD 0 else s.slvReg3 }

variable {m : Axi.Master 4} {bramData : BitVec 16} {s : S00Axi}

theorem clock_slvReg0_of_writes (h : s.Writes m 0) (hstrb : m.wstrb = 0xF) :
    (s.clock true m bramData).slvReg0 = m.wdata := by
  show (if s.Writes m 0 then Axi.writeStrobes 4 m.wstrb m.wdata s.slvReg0 else s.slvReg0) = _
  rw [if_pos h, hstrb]
  exact Axi.writeStrobes_full

theorem clock_slvReg0_of_not_writes (h : ¬ s.Writes m 0) : (s.clock true m bramData).slvReg0 = s.slvReg0 :=
  if_neg h

theorem clock_slvReg1_of_not_wren (h : s.axi.slvRegWren m = false) :
    (s.clock true m bramData).slvReg1 = bramData := by
  show (if s.axi.slvRegWren m then _ else bramData) = _
  rw [h]
  rfl

theorem regDataOut_of_one (h : regSel s.axi.araddr = 1) : s.regDataOut = s.slvReg1.setWidth 32 := by
  unfold regDataOut
  rw [h]
  rfl

end S00Axi

/-! ## The slave and the buffer it reads -/

structure Readout where
  slave : S00Axi
  buffer : DualRam (BitVec 16)

namespace Readout

structure In where
  aresetn : Bool
  sAxi : Axi.Master 4
  /-- The write port of the buffer. -/
  wea : Bool
  addra : BitVec 17
  dina : BitVec 16
  /-- What the buffer reads outside its depth. -/
  oob : BitVec 16
deriving DecidableEq, Repr

def clock (i : In) (s : Readout) : Readout where
  slave := s.slave.clock i.aresetn i.sAxi s.buffer.doutb
  buffer := s.buffer.clock frameSize i.wea i.addra.toNat i.dina true s.slave.bramAddr.toNat i.oob

/-- The run from the reset of the slave, with any buffer. -/
def runOn (buf : DualRam (BitVec 16)) (ins : ℕ → In) : ℕ → Readout := run clock ⟨S00Axi.init, buf⟩ ins

section Run

variable {buf : DualRam (BitVec 16)} {ins : ℕ → In}

theorem runOn_succ (t : ℕ) : runOn buf ins (t + 1) = (runOn buf ins t).clock (ins t) := rfl

variable (buf ins)

/-- The master along the run. -/
def master (t : ℕ) : Axi.Master 4 := (ins t).sAxi

/-- The channels of the slave along the run. -/
def channels (t : ℕ) : Axi.Slave 4 := (runOn buf ins t).slave.axi

/-- A write of `v` with all strobes to register `k` is accepted in cycle `w`. -/
structure WritesReg (k : ℕ) (v : BitVec 32) (w : ℕ) : Prop where
  aw : Axi.AwFires (master ins) (channels buf ins) w
  wd : Axi.WFires (master ins) (channels buf ins) w
  reg : S00Axi.regSel (master ins w).awaddr = k
  wdata : (master ins w).wdata = v
  wstrb : (master ins w).wstrb = 0xF

/-- **Asking for pixel `i`**: its address is written to register `0` in cycle `w`, the response taken in cycle `b`,
and a read of register `1` first asserted in cycle `q`, with no other write to register `0` in between. -/
structure Asks (i w b q : ℕ) : Prop where
  lt : i < frameSize
  write : WritesReg buf ins 0 (BitVec.ofNat 32 i) w
  response : w < b ∧ Axi.BFires (master ins) (channels buf ins) b
  after : b < q
  first : Axi.Starts (master ins) (channels buf ins) q
  reg : S00Axi.regSel (master ins q).araddr = 1
  latest : ∀ u, w < u → u < q →
    ¬ (Axi.AwFires (master ins) (channels buf ins) u ∧ S00Axi.regSel (master ins u).awaddr = 0)

variable {buf ins}

/-- The slave runs from reset under the channel rules. -/
theorem runs (hrst : ∀ t, (ins t).aresetn = true) :
    Axi.Runs (master ins) (channels buf ins) fun t => (runOn buf ins t).slave.regDataOut where
  zero := rfl
  succ t := by
    show ((runOn buf ins t).slave.clock (ins t).aresetn (ins t).sAxi _).axi = _
    rw [hrst]
    rfl

theorem slave_succ (hrst : ∀ t, (ins t).aresetn = true) (t : ℕ) :
    (runOn buf ins (t + 1)).slave =
      (runOn buf ins t).slave.clock true (master ins t) (runOn buf ins t).buffer.doutb := by
  rw [runOn_succ, ← hrst t]
  rfl

/-- Register `0` holds the address asked for until the read. -/
theorem slvReg0_of_asks (hrst : ∀ t, (ins t).aresetn = true)
    (hd : Axi.Disciplined (master ins) (channels buf ins)) {i w b q : ℕ} (h : Asks buf ins i w b q) {t : ℕ}
    (hwt : w + 1 ≤ t) (htq : t ≤ q) : (runOn buf ins t).slave.slvReg0 = BitVec.ofNat 32 i := by
  induction t, hwt using Nat.le_induction with
  | base =>
    have hacc := Axi.accepted_of_awFires hd.interleaved (runs hrst) h.write.aw
    have hwren : (runOn buf ins w).slave.Writes (master ins w) 0 := by
      refine ⟨?_, ?_⟩
      · show (channels buf ins w).slvRegWren (master ins w) = true
        rw [Axi.Slave.slvRegWren_of_accepted hacc, h.write.wd.1, h.write.aw.1]
        rfl
      · show S00Axi.regSel (channels buf ins w).awaddr = 0
        rw [hacc.2.2.2.2]
        exact h.write.reg
    rw [slave_succ hrst, S00Axi.clock_slvReg0_of_writes hwren h.write.wstrb]
    exact h.write.wdata
  | succ t hwt ih =>
    have hno : ¬ (runOn buf ins t).slave.Writes (master ins t) 0 := by
      rintro ⟨hwren, hreg⟩
      have hwren' : (channels buf ins t).slvRegWren (master ins t) = true := hwren
      simp only [Axi.Slave.slvRegWren, Bool.and_eq_true] at hwren'
      have haw : Axi.AwFires (master ins) (channels buf ins) t := ⟨hwren'.2, hwren'.1.2⟩
      have hlatch : (channels buf ins t).awaddr = (master ins t).awaddr :=
        (Axi.accepted_of_awFires hd.interleaved (runs hrst) haw).2.2.2.2
      exact h.latest t (by omega) (by omega) ⟨haw, hlatch ▸ hreg⟩
    rw [slave_succ hrst, S00Axi.clock_slvReg0_of_not_writes hno]
    exact ih (by omega)

/-- One cycle after the address the buffer shows the pixel. -/
theorem doutb_of_slvReg0 {i t : ℕ} (hi : i < frameSize)
    (h : (runOn buf ins t).slave.slvReg0 = BitVec.ofNat 32 i) :
    (runOn buf ins (t + 1)).buffer.doutb = (runOn buf ins t).buffer.mem i := by
  have haddr : (runOn buf ins t).slave.bramAddr.toNat = i := by
    unfold S00Axi.bramAddr
    rw [h, BitVec.toNat_setWidth, BitVec.toNat_ofNat]
    rw [frameSize_eq] at hi
    omega
  have hclk : (runOn buf ins (t + 1)).buffer.doutb =
      (runOn buf ins t).buffer.mem (runOn buf ins t).slave.bramAddr.toNat :=
    DualRam.clock_doutb_of_lt (show (runOn buf ins t).slave.bramAddr.toNat < frameSize from haddr ▸ hi)
  rw [hclk, haddr]

/-- The word of the read: the pixel as it stood in the cycle before the address was asserted. -/
theorem beat_of_asks (hrst : ∀ t, (ins t).aresetn = true)
    (hd : Axi.Disciplined (master ins) (channels buf ins)) {i w b q : ℕ} (h : Asks buf ins i w b q) :
    Axi.Beat (master ins) (channels buf ins) q (((runOn buf ins (q - 1)).buffer.mem i).setWidth 32) := by
  obtain ⟨u, rfl⟩ : ∃ u, q = u + 1 := ⟨q - 1, by have := h.after; omega⟩
  show Axi.Beat (master ins) (channels buf ins) (u + 1) (((runOn buf ins u).buffer.mem i).setWidth 32)
  obtain ⟨hbeat, haraddr⟩ := Axi.beat_of_starts hd.interleaved (runs hrst) h.first
  have h0 : (runOn buf ins u).slave.slvReg0 = BitVec.ofNat 32 i :=
    -- the write at `w`, its response at `b`, the read at `u + 1`
    slvReg0_of_asks hrst hd h (by have := h.response.1; have := h.after; omega) (Nat.le_succ u)
  have hdout : (runOn buf ins (u + 1)).buffer.doutb = (runOn buf ins u).buffer.mem i := doutb_of_slvReg0 h.lt h0
  have hwready : (channels buf ins (u + 1)).wready = false := Axi.wready_of_arvalid hd (runs hrst) h.first.1
  have h1 : (runOn buf ins (u + 2)).slave.slvReg1 = (runOn buf ins u).buffer.mem i := by
    rw [slave_succ hrst, S00Axi.clock_slvReg1_of_not_wren (Axi.Slave.slvRegWren_of_wready hwready)]
    exact hdout
  have hsel : S00Axi.regSel (runOn buf ins (u + 2)).slave.axi.araddr = 1 :=
    (congrArg S00Axi.regSel haraddr).trans h.reg
  rw [S00Axi.regDataOut_of_one hsel, h1] at hbeat
  exact hbeat

/-- A buffer that is not written keeps its cells. -/
theorem mem_of_not_wea {t₀ t : ℕ} (htt : t₀ ≤ t) (h : ∀ u, t₀ ≤ u → u < t → (ins u).wea = false) :
    (runOn buf ins t).buffer.mem = (runOn buf ins t₀).buffer.mem := by
  induction t, htt using Nat.le_induction with
  | base => rfl
  | succ t htt ih =>
    have hclk : (runOn buf ins (t + 1)).buffer.mem = (runOn buf ins t).buffer.mem := by
      show ((runOn buf ins t).buffer.clock frameSize (ins t).wea _ _ _ _ _).mem = _
      rw [h t htt (Nat.lt_succ_self t)]
      exact DualRam.clock_mem_of_not_wea
    rw [hclk]
    exact ih fun u h1 h2 => h u h1 (by omega)

/-- **Software reads back the pixel it asked for.**  The read is accepted in cycle `q + 1`, and its single beat
carries the pixel as it stood two cycles before.  With the buffer at rest, asking for one pixel after the other
returns the buffer in order. -/
theorem pixel_read_back (hrst : ∀ t, (ins t).aresetn = true)
    (hd : Axi.Disciplined (master ins) (channels buf ins)) :
    (∀ i w b q, Asks buf ins i w b q →
      Axi.Beat (master ins) (channels buf ins) q (((runOn buf ins (q - 1)).buffer.mem i).setWidth 32)) ∧
    ∀ w b q : ℕ → ℕ, (∀ i < frameSize, Asks buf ins i (w i) (b i) (q i)) →
      (∀ i, i + 1 < frameSize → q i < w (i + 1)) →
      (∀ u, w 0 ≤ u → u < q (frameSize - 1) → (ins u).wea = false) →
      ∀ i < frameSize,
        Axi.Beat (master ins) (channels buf ins) (q i) (((runOn buf ins (w 0)).buffer.mem i).setWidth 32) := by
  refine ⟨fun i w b q h => beat_of_asks hrst hd h, ?_⟩
  intro w b q h horder hwea i hi
  have hwq : ∀ j < frameSize, w j + 1 ≤ q j - 1 := fun j hj => by
    have := (h j hj).response.1
    have := (h j hj).after
    omega
  have hfrom : ∀ j < frameSize, w 0 + 1 ≤ q j - 1 := by
    intro j
    induction j with
    | zero => exact hwq 0
    | succ j ih =>
      intro hj
      have := ih (by omega)
      have := horder j hj
      have := hwq (j + 1) hj
      omega
  have hto : ∀ j, i ≤ j → j < frameSize → q i ≤ q j := by
    intro j hij
    induction j, hij using Nat.le_induction with
    | base => exact fun _ => le_rfl
    | succ j hij ih =>
      intro hj
      have := ih (by omega)
      have := horder j hj
      have := hwq (j + 1) hj
      omega
  have hmem : (runOn buf ins (q i - 1)).buffer.mem = (runOn buf ins (w 0)).buffer.mem := by
    refine mem_of_not_wea (by have := hfrom i hi; omega) fun u h1 h2 => hwea u h1 ?_
    have := hto (frameSize - 1) (by omega) (by rw [frameSize_eq]; omega)
    omega
  rw [← hmem]
  exact beat_of_asks hrst hd (h i hi)

end Run

/-! ## The loop at full speed -/

section Loop

/-- Six cycles for each pixel: the write is accepted in the second, its response taken in the third, the read accepted
in the fifth and answered in the sixth. -/
def loopMaster (t : ℕ) : Axi.Master 4 where
  awaddr := 0
  awvalid := decide (t % 6 ≤ 1)
  wdata := BitVec.ofNat 32 (t / 6)
  wstrb := 0xF
  wvalid := decide (t % 6 ≤ 1)
  bready := true
  araddr := 4
  arvalid := decide (t % 6 = 3 ∨ t % 6 = 4)
  rready := true

def loopIns (t : ℕ) : In := ⟨true, loopMaster t, false, 0, 0, 0⟩

/-- Each cell holds its address. -/
def loopBuffer : DualRam (BitVec 16) := ⟨BitVec.ofNat 16, 0⟩

def loopChannels : ℕ → Axi.Slave 4 := channels loopBuffer loopIns

/-- The write side in each of the six cycles. -/
def loopWrite : ℕ → Axi.Slave.WriteStage 4
  | 1 => .accepted 0
  | 2 => .responding
  | _ => .idle

/-- The read side in each of the six cycles. -/
def loopRead : ℕ → Axi.Slave.ReadStage 4
  | 4 => .accepted 4
  | 5 => .responding
  | _ => .idle

theorem loop_runs :
    Axi.Runs loopMaster loopChannels fun t => (runOn loopBuffer loopIns t).slave.regDataOut := by
  have h : Axi.Runs (master loopIns) (channels loopBuffer loopIns) _ := runs fun _ => rfl
  exact h

theorem loop_stages (t : ℕ) :
    (loopChannels t).InWrite (loopWrite (t % 6)) ∧ (loopChannels t).InRead (loopRead (t % 6)) := by
  induction t with
  | zero => exact ⟨Axi.Slave.inWrite_init, Axi.Slave.inRead_init⟩
  | succ t ih =>
    obtain ⟨hw, hrd⟩ := ih
    have hsucc : (t + 1) % 6 = (t % 6 + 1) % 6 := by omega
    rw [loop_runs.succ, hsucc]
    have hlt : t % 6 < 6 := Nat.mod_lt t (by omega)
    have hav : (loopMaster t).awvalid = decide (t % 6 ≤ 1) := rfl
    have hwv : (loopMaster t).wvalid = decide (t % 6 ≤ 1) := rfl
    have hrv : (loopMaster t).arvalid = decide (t % 6 = 3 ∨ t % 6 = 4) := rfl
    generalize t % 6 = c at hlt hav hwv hrv hw hrd ⊢
    rcases (by omega : c = 0 ∨ c = 1 ∨ c = 2 ∨ c = 3 ∨ c = 4 ∨ c = 5) with rfl | rfl | rfl | rfl | rfl | rfl
    · exact ⟨Axi.Slave.write_accept hw hav hwv, Axi.Slave.read_stay hrd hrv⟩
    · exact ⟨Axi.Slave.write_done hw hav hwv, Axi.Slave.read_stay hrd hrv⟩
    · exact ⟨Axi.Slave.write_respond hw rfl, Axi.Slave.read_stay hrd hrv⟩
    · exact ⟨Axi.Slave.write_stay hw (by rw [hav]; rfl), Axi.Slave.read_accept hrd hrv⟩
    · exact ⟨Axi.Slave.write_stay hw (by rw [hav]; rfl), (Axi.Slave.read_done hrd hrv).1⟩
    · exact ⟨Axi.Slave.write_stay hw (by rw [hav]; rfl), Axi.Slave.read_respond hrd hrv rfl⟩

theorem count_phase {P : ℕ → Prop} [DecidablePred P] {k : ℕ} (hk : k < 6) (h : ∀ u, P u ↔ u % 6 = k) (t : ℕ) :
    Nat.count P t = (t + 5 - k) / 6 := by
  induction t with
  | zero =>
    rw [Nat.count_zero]
    omega
  | succ t ih =>
    rw [Nat.count_succ, ih]
    by_cases ht : t % 6 = k
    · rw [if_pos ((h t).mpr ht)]
      omega
    · rw [if_neg fun hP => ht ((h t).mp hP)]
      omega

/-- The cycles of the handshakes. -/
theorem loop_fires (t : ℕ) :
    (Axi.AwFires loopMaster loopChannels t ↔ t % 6 = 1) ∧ (Axi.WFires loopMaster loopChannels t ↔ t % 6 = 1) ∧
    (Axi.BFires loopMaster loopChannels t ↔ t % 6 = 2) ∧ (Axi.ArFires loopMaster loopChannels t ↔ t % 6 = 4) ∧
    (Axi.RFires loopMaster loopChannels t ↔ t % 6 = 5) := by
  obtain ⟨hw, hrd⟩ := loop_stages t
  have hlt : t % 6 < 6 := Nat.mod_lt t (by omega)
  have hav : (loopMaster t).awvalid = decide (t % 6 ≤ 1) := rfl
  have hwv : (loopMaster t).wvalid = decide (t % 6 ≤ 1) := rfl
  have hrv : (loopMaster t).arvalid = decide (t % 6 = 3 ∨ t % 6 = 4) := rfl
  have hbr : (loopMaster t).bready = true := rfl
  have hrr : (loopMaster t).rready = true := rfl
  simp only [Axi.AwFires, Axi.WFires, Axi.BFires, Axi.ArFires, Axi.RFires, hav, hwv, hrv, hbr, hrr]
  generalize t % 6 = c at hlt hw hrd ⊢
  rcases (by omega : c = 0 ∨ c = 1 ∨ c = 2 ∨ c = 3 ∨ c = 4 ∨ c = 5) with rfl | rfl | rfl | rfl | rfl | rfl <;>
    simp_all [loopWrite, loopRead, Axi.Slave.InWrite, Axi.Slave.InRead]

theorem loop_disciplined : Axi.Disciplined loopMaster loopChannels := by
  have haw (t : ℕ) : Nat.count (Axi.AwFires loopMaster loopChannels) t = (t + 4) / 6 :=
    count_phase (by omega) (fun u => (loop_fires u).1) t
  have hwd (t : ℕ) : Nat.count (Axi.WFires loopMaster loopChannels) t = (t + 4) / 6 :=
    count_phase (by omega) (fun u => (loop_fires u).2.1) t
  have hb (t : ℕ) : Nat.count (Axi.BFires loopMaster loopChannels) t = (t + 3) / 6 :=
    count_phase (by omega) (fun u => (loop_fires u).2.2.1) t
  have har (t : ℕ) : Nat.count (Axi.ArFires loopMaster loopChannels) t = (t + 1) / 6 :=
    count_phase (by omega) (fun u => (loop_fires u).2.2.2.1) t
  have hr (t : ℕ) : Nat.count (Axi.RFires loopMaster loopChannels) t = t / 6 :=
    count_phase (by omega) (fun u => (loop_fires u).2.2.2.2) t
  have hav (t : ℕ) : (loopMaster t).awvalid = true ↔ t % 6 ≤ 1 := decide_eq_true_iff
  have hwv (t : ℕ) : (loopMaster t).wvalid = true ↔ t % 6 ≤ 1 := decide_eq_true_iff
  have hrv (t : ℕ) : (loopMaster t).arvalid = true ↔ t % 6 = 3 ∨ t % 6 = 4 := decide_eq_true_iff
  -- a valid signal that is not ready is in the first of its two cycles
  have haw0 (t : ℕ) (h : t % 6 ≤ 1) (hlow : (loopChannels t).awready = false) : t % 6 = 0 := by
    by_contra hne
    exact absurd (((loop_fires t).1.mpr (by omega)).2.symm.trans hlow) (by simp)
  have hwd0 (t : ℕ) (h : t % 6 ≤ 1) (hlow : (loopChannels t).wready = false) : t % 6 = 0 := by
    by_contra hne
    exact absurd (((loop_fires t).2.1.mpr (by omega)).2.symm.trans hlow) (by simp)
  have har0 (t : ℕ) (h : t % 6 = 3 ∨ t % 6 = 4) (hlow : (loopChannels t).arready = false) : t % 6 = 3 := by
    by_contra hne
    exact absurd (((loop_fires t).2.2.2.1.mpr (by omega)).2.symm.trans hlow) (by simp)
  refine ⟨?_, ?_, ?_, ?_, ?_, ?_, ?_, ?_⟩ <;> intro t h
  · intro hlow
    have := haw0 t ((hav t).mp h) hlow
    exact ⟨(hav (t + 1)).mpr (by omega), rfl⟩
  · intro hlow
    have := hwd0 t ((hwv t).mp h) hlow
    have hdata : (t + 1) / 6 = t / 6 := by omega
    exact ⟨(hwv (t + 1)).mpr (by omega), congrArg (BitVec.ofNat 32) hdata, rfl⟩
  · intro hlow
    have := har0 t ((hrv t).mp h) hlow
    exact ⟨(hrv (t + 1)).mpr (by omega), rfl⟩
  · rw [haw, hb]
  · rw [hwd, hb]
  · rw [har, hr]
  · rw [har, hr, ← Bool.not_eq_true, hrv]
    rw [hav, hwv] at h
    exact ⟨by omega, rfl⟩
  · rw [haw, hwd, hb, ← Bool.not_eq_true, ← Bool.not_eq_true, hav, hwv]
    rw [hrv] at h
    exact ⟨by omega, by omega, rfl, rfl⟩

theorem loop_asks {i : ℕ} (hi : i < frameSize) :
    Asks loopBuffer loopIns i (6 * i + 1) (6 * i + 2) (6 * i + 3) where
  lt := hi
  write :=
    { aw := (loop_fires _).1.mpr (by omega)
      wd := (loop_fires _).2.1.mpr (by omega)
      reg := by
        show S00Axi.regSel 0 = 0
        decide
      wdata := congrArg (BitVec.ofNat 32) (by omega : (6 * i + 1) / 6 = i)
      wstrb := rfl }
  response := ⟨by omega, (loop_fires _).2.2.1.mpr (by omega)⟩
  after := by omega
  first := by
    have hrv (t : ℕ) : (loopMaster t).arvalid = decide (t % 6 = 3 ∨ t % 6 = 4) := rfl
    exact ⟨(hrv _).trans (decide_eq_true (by omega)), fun u hu => Or.inl ((hrv u).trans (decide_eq_false (by omega)))⟩
  reg := by
    show S00Axi.regSel 4 = 1
    decide
  latest u h1 h2 h := by
    have := (loop_fires u).1.mp h.1
    omega

/-- The loop of `recv_callback` at full speed: its first and its last read. -/
theorem pixel_read_back_loop :
    Axi.Beat loopMaster loopChannels 3 0 ∧ Axi.Beat loopMaster loopChannels (6 * 76799 + 3) 11263 := by
  have hd : Axi.Disciplined (master loopIns) (channels loopBuffer loopIns) := loop_disciplined
  obtain ⟨hone, hloop⟩ := pixel_read_back (fun _ => rfl) hd
  have hlt : ∀ i, i ≤ 76799 → i < frameSize := fun i hi => by
    rw [frameSize_eq]
    omega
  refine ⟨hone 0 1 2 3 (loop_asks (hlt 0 (by omega))), ?_⟩
  exact hloop (fun i => 6 * i + 1) (fun i => 6 * i + 2) (fun i => 6 * i + 3) (fun _ h => loop_asks h)
    (fun _ _ => by omega) (fun _ _ _ => rfl) 76799 (hlt 76799 le_rfl)

end Loop

end Readout

end SuspiciousPackage
