import SuspiciousPackage.Detect.RegisterBank

/-!
# Detect.StatusRead — what a read of `STAT1` returns

`STAT1` samples the status of the detector in every cycle without a write, but it is also written by the bus.  A read
whose address is handed over one cycle after a write to another register returns the status of two cycles before; one
that follows a write to `STAT1` itself returns the data of the master (`Taints`).  `status_reads_iff`: this is the only
way in which a response is not a snapshot of the detector.
-/

namespace SuspiciousPackage

open Sync

/-- `check_suspicion_alert`, from the word read. -/
def checkSuspicionAlert (stat1 : BitVec 32) : BitVec 32 := (stat1 >>> 17) &&& 0x1

namespace ObjDetAxiSlave

/-- `x` is the status of one cycle, at most two cycles before cycle `q`, and an alert in it was really asserted. -/
def Snapshot (st : ℕ → Status) (q : ℕ) (x : BitVec 32) : Prop :=
  ∃ u ≤ q, q ≤ u + 2 ∧ x = statusWord (st u) ∧ (checkSuspicionAlert x = 1 → (st u).objectSusp = true)

/-- Every response to a read of `STAT1` carries a snapshot, as long as it is on the channel. -/
def SnapshotReads (m : ℕ → Axi.Master 5) (st : ℕ → Status) : Prop :=
  ∀ q, Axi.ArFires m (channels m st) q → regSel (m q).araddr = 1 →
    ∀ p, q < p → (∀ u, q < u → u < p → (m u).rready = false) → Snapshot st q (channels m st p).rdata

/-- The write handed over in cycle `u` puts a byte of the master into `STAT1`; the top byte of a status is `0`, so
writing `0` there changes nothing. -/
structure Taints (m : ℕ → Axi.Master 5) (s : ℕ → Axi.Slave 5) (u : ℕ) : Prop where
  write : Axi.AwFires m s u ∧ Axi.WFires m s u
  reg : regSel (m u).awaddr = 1
  byte : ∃ b < 4, (m u).wstrb.getLsbD b = true ∧ (b = 3 → Axi.byte (m u).wdata 3 ≠ 0)

/-! ## The status word -/

section Word

variable {x : Status} {i : ℕ}

/-- The fields of the status word, bit by bit. -/
theorem getLsbD_statusWord : (statusWord x).getLsbD i =
    if i < 16 then x.suspicion.getLsbD i else if i = 16 then x.objectDetected
    else if i = 17 then x.objectSusp else false := by
  unfold statusWord
  rw [BitVec.getLsbD_setWidth, BitVec.getLsbD_append, BitVec.getLsbD_append, BitVec.getLsbD_append]
  by_cases h16 : i < 16
  · simp [h16]
    omega
  · by_cases h17 : i = 16
    · subst h17
      simp
    · by_cases h18 : i = 17
      · subst h18
        simp
      · have h1 : ¬ i - 16 < 1 := by omega
        have h2 : ¬ i - 16 - 1 < 1 := by omega
        simp [h16, h17, h18, h1, h2]

/-- An alert read is bit `17` of the word. -/
theorem getLsbD_of_alert {w : BitVec 32} (h : checkSuspicionAlert w = 1) : w.getLsbD 17 = true := by
  have hbit := congrArg (fun y => BitVec.getLsbD y 0) h
  unfold checkSuspicionAlert at hbit
  simpa using hbit

theorem snapshot_statusWord {st : ℕ → Status} {q u : ℕ} (hu : u ≤ q) (hq : q ≤ u + 2) :
    Snapshot st q (statusWord (st u)) := by
  refine ⟨u, hu, hq, rfl, fun h => ?_⟩
  have hbit := getLsbD_of_alert h
  rw [getLsbD_statusWord] at hbit
  simpa using hbit

/-- A write that does not taint leaves a status as it is. -/
theorem writeStrobes_statusWord {strb : BitVec 4} {data : BitVec 32}
    (h : ∀ b < 4, strb.getLsbD b = true → b = 3 ∧ Axi.byte data 3 = 0) :
    Axi.writeStrobes 4 strb data (statusWord x) = statusWord x := by
  apply BitVec.eq_of_getLsbD_eq
  intro i hi
  rw [Axi.getLsbD_writeStrobes hi]
  by_cases hb : i / 8 < 4 ∧ strb.getLsbD (i / 8) = true
  · obtain ⟨h3, hzero⟩ := h _ hb.1 hb.2
    have hbit := congrArg (fun y => BitVec.getLsbD y (i - 24)) hzero
    unfold Axi.byte at hbit
    rw [BitVec.getLsbD_extractLsb', show 8 * 3 + (i - 24) = i by omega] at hbit
    have hdata : data.getLsbD i = false := by
      simpa [show i - 24 < 8 by omega] using hbit
    rw [if_pos hb, hdata, getLsbD_statusWord, if_neg (by omega), if_neg (by omega), if_neg (by omega)]
  · rw [if_neg hb]

end Word

/-! ## The sampling register -/

section Run

variable {m : ℕ → Axi.Master 5} {st : ℕ → Status} {t q : ℕ}

/-- Without a write the register takes the status. -/
theorem slvReg1_of_not_wren (h : (channels m st t).slvRegWren (m t) = false) :
    (runOn m st (t + 1)).slvReg1 = statusWord (st t) := by
  have hw : (runOn m st t).axi.slvRegWren (m t) = false := h
  rw [runOn_succ]
  show (if (runOn m st t).axi.slvRegWren (m t) then _ else statusWord (st t)) = _
  rw [hw]
  rfl

theorem slvReg1_of_wren (h : (channels m st t).slvRegWren (m t) = true) :
    (runOn m st (t + 1)).slvReg1 = (runOn m st t).writeReg (m t) 1 (runOn m st t).slvReg1 := by
  have hw : (runOn m st t).axi.slvRegWren (m t) = true := h
  rw [runOn_succ]
  show (if (runOn m st t).axi.slvRegWren (m t) then _ else statusWord (st t)) = _
  rw [hw]
  rfl

/-- There are no writes in two cycles in a row. -/
theorem wren_of_wren_succ (h : (channels m st (t + 1)).slvRegWren (m (t + 1)) = true) :
    (channels m st t).slvRegWren (m t) = false := by
  have hw : (channels m st (t + 1)).wready = true := by
    unfold Axi.Slave.slvRegWren at h
    simp only [Bool.and_eq_true] at h
    exact h.1.1.1
  have hclk : (channels m st (t + 1)).wready =
      (!(channels m st t).wready && (m t).wvalid && (m t).awvalid && (channels m st t).awEn) := rfl
  rw [hclk] at hw
  simp only [Bool.and_eq_true, Bool.not_eq_true'] at hw
  exact Axi.Slave.slvRegWren_of_wready hw.1.1.1

/-- **What `STAT1` holds** when a read address is handed over and the write before does not taint it. -/
theorem snapshot_slvReg1 (hd : Axi.Interleaved m (channels m st)) (hq : Axi.ArFires m (channels m st) q)
    (hno : ¬ Taints m (channels m st) (q - 1)) : Snapshot st q (runOn m st q).slvReg1 := by
  obtain ⟨t, rfl⟩ : ∃ t, q = t + 1 := by
    rcases q with _ | t
    · exact absurd hq.2 (by simp [channels, runOn, run, init, Axi.Slave.init])
    · exact ⟨t, rfl⟩
  by_cases hw : (channels m st t).slvRegWren (m t) = true
  · obtain ⟨u, rfl⟩ : ∃ u, t = u + 1 := by
      rcases t with _ | u
      · exact absurd hw (by simp [channels, runOn, run, init, Axi.Slave.init, Axi.Slave.slvRegWren])
      · exact ⟨u, rfl⟩
    have hfires := Axi.slvRegWren_iff.mp hw
    have haddr : (runOn m st (u + 1)).axi.awaddr = (m (u + 1)).awaddr := Axi.awaddr_of_write hd (runs m st) hfires.1
    have hkeep : (runOn m st (u + 1)).writeReg (m (u + 1)) 1 (statusWord (st u)) = statusWord (st u) := by
      unfold writeReg
      by_cases hreg : (runOn m st (u + 1)).Writes (m (u + 1)) 1
      · rw [if_pos hreg]
        refine writeStrobes_statusWord fun b hb hs => ?_
        by_contra hnot
        exact hno ⟨hfires, haddr ▸ hreg.2, b, hb, hs, fun h3 hzero => hnot ⟨h3, hzero⟩⟩
      · rw [if_neg hreg]
    rw [slvReg1_of_wren hw, slvReg1_of_not_wren (wren_of_wren_succ hw), hkeep]
    exact snapshot_statusWord (by omega) (by omega)
  · rw [Bool.not_eq_true] at hw
    rw [slvReg1_of_not_wren hw]
    exact snapshot_statusWord (by omega) (by omega)

/-- The response to a read of `STAT1` carries the register as it was when the address was handed over. -/
theorem rdata_of_read (hd : Axi.Interleaved m (channels m st)) (hq : Axi.ArFires m (channels m st) q)
    (hreg : regSel (m q).araddr = 1) {p : ℕ} (hqp : q < p) (hlow : ∀ u, q < u → u < p → (m u).rready = false) :
    (channels m st p).rdata = (runOn m st q).slvReg1 := by
  obtain ⟨⟨hoffered, -⟩, haddr⟩ := Axi.reads_answered hd (runs m st)
  have ha : (runOn m st q).axi.araddr = (m q).araddr := haddr q hq
  rw [(hoffered _ q ⟨hq, rfl⟩ p hqp hlow).2.1, regDataOut_eq, ha, hreg]
  rfl

/-- A write that taints shows against this status. -/
def contrary (w : BitVec 32) : Status := ⟨true, !w.getLsbD 16, ~~~ w.setWidth 16⟩

theorem statusWord_contrary_ne {strb : BitVec 4} {w old : BitVec 32} {b : ℕ} (hb : b < 4)
    (hs : strb.getLsbD b = true) (h3 : b = 3 → Axi.byte w 3 ≠ 0) :
    Axi.writeStrobes 4 strb w old ≠ statusWord (contrary w) := by
  intro h
  -- where the byte is written the word has the data of the master
  have hbit : ∀ i < 32, i / 8 = b → w.getLsbD i = (statusWord (contrary w)).getLsbD i := by
    intro i hi hdiv
    rw [← h, Axi.getLsbD_writeStrobes hi, hdiv, if_pos ⟨hb, hs⟩]
  simp only [getLsbD_statusWord, contrary] at hbit
  rcases (by omega : b = 0 ∨ b = 1 ∨ b = 2 ∨ b = 3) with rfl | rfl | rfl | rfl
  · have := hbit 0 (by omega) (by omega)
    simp at this
  · have := hbit 8 (by omega) (by omega)
    simp at this
  · have := hbit 16 (by omega) (by omega)
    simp at this
  · refine h3 rfl (BitVec.eq_of_getLsbD_eq fun j hj => ?_)
    have := hbit (24 + j) (by omega) (by omega)
    rw [if_neg (by omega), if_neg (by omega), if_neg (by omega)] at this
    unfold Axi.byte
    rw [BitVec.getLsbD_extractLsb', this]
    simp

/-- **When every read of `STAT1` is a snapshot**, whatever the detector reports: iff the master never hands over a read
address of `STAT1` one cycle after a write that puts its own data there. -/
theorem status_reads_iff (m : ℕ → Axi.Master 5) (st : ℕ → Status) (hd : Axi.Interleaved m (channels m st)) :
    (∀ st', SnapshotReads m st') ↔
      ∀ q, Axi.ArFires m (channels m st) q → regSel (m q).araddr = 1 → ¬ Taints m (channels m st) (q - 1) := by
  have hdis : ∀ st', Axi.Interleaved m (channels m st') := fun st' => Axi.Interleaved.of_runs (runs m st) (runs m st') hd
  have hfires : ∀ st' u, _ := fun st' u => Axi.fires_runs (runs m st) (runs m st') u
  constructor
  · rintro h q hq hreg ⟨⟨haw, hw⟩, hwreg, b, hb, hs, h3⟩
    -- the same handshakes with a status that differs from the data written
    have hq' := (hfires (fun _ => contrary (m (q - 1)).wdata) q).2.2.1.mp hq
    have haw' := (hfires (fun _ => contrary (m (q - 1)).wdata) (q - 1)).1.mp haw
    have hw' := (hfires (fun _ => contrary (m (q - 1)).wdata) (q - 1)).2.1.mp hw
    generalize hst : (fun _ : ℕ => contrary (m (q - 1)).wdata) = st' at hq' haw' hw'
    obtain ⟨u, -, -, hword, -⟩ := h st' q hq' hreg (q + 1) (Nat.lt_succ_self q) fun u h1 h2 => by omega
    rw [rdata_of_read (hdis st') hq' hreg (Nat.lt_succ_self q) fun u h1 h2 => by omega] at hword
    obtain ⟨t, rfl⟩ : ∃ t, q = t + 1 := by
      rcases q with _ | t
      · exact absurd hq'.2 (by simp [channels, runOn, run, init, Axi.Slave.init])
      · exact ⟨t, rfl⟩
    have hwren : (channels m st' t).slvRegWren (m t) = true := Axi.slvRegWren_iff.mpr ⟨haw', hw'⟩
    have haddr : (runOn m st' t).axi.awaddr = (m t).awaddr := Axi.awaddr_of_write (hdis st') (runs m st') haw'
    have hwrites : (runOn m st' t).Writes (m t) 1 := ⟨hwren, haddr.symm ▸ hwreg⟩
    rw [slvReg1_of_wren hwren, writeReg, if_pos hwrites, ← hst] at hword
    exact statusWord_contrary_ne hb hs h3 hword
  · intro h st' q hq hreg p hqp hlow
    have hq' := (hfires st' q).2.2.1.mpr hq
    rw [rdata_of_read (hdis st') hq hreg hqp hlow]
    refine snapshot_slvReg1 (hdis st') hq fun ht => h q hq' hreg ?_
    obtain ⟨⟨haw, hw⟩, hwreg, hbyte⟩ := ht
    exact ⟨⟨(hfires st' _).1.mpr haw, (hfires st' _).2.1.mpr hw⟩, hwreg, hbyte⟩

end Run

/-- The word `0x20000` is written to the address `addr` in cycle `1`, and `STAT1` read in cycle `2`. -/
def statMaster (addr : BitVec 5) : ℕ → Axi.Master 5 := onceMaster ⟨addr, 0x20000, 0xF⟩ 4 1

/-- With the write to `DETECTION_THRES` the read returns a status, and no alert. -/
theorem status_reads_iff_thres : SnapshotReads (statMaster 8) noStatus ∧
    checkSuspicionAlert (channels (statMaster 8) noStatus 3).rdata = 0 := by
  have hd : Axi.Interleaved (statMaster 8) (channels (statMaster 8) noStatus) :=
    interleaved_onceMaster (by decide +kernel) (by decide +kernel) (by decide +kernel)
  refine ⟨(status_reads_iff (statMaster 8) noStatus hd).mpr (fun q _ _ ht => ?_) noStatus, by decide +kernel⟩
  exact absurd ht.reg (show ¬ regSel 8 = 1 by decide)

/-- With the write to `STAT1` itself the read returns the data written: an alert that was never asserted. -/
theorem alert_from_master : Axi.Interleaved (statMaster 4) (channels (statMaster 4) noStatus) ∧
    checkSuspicionAlert (channels (statMaster 4) noStatus 3).rdata = 1 ∧
    ¬ SnapshotReads (statMaster 4) noStatus := by
  have halert : checkSuspicionAlert (channels (statMaster 4) noStatus 3).rdata = 1 := by decide +kernel
  refine ⟨interleaved_onceMaster (by decide +kernel) (by decide +kernel) (by decide +kernel), halert, fun h => ?_⟩
  obtain ⟨u, -, -, -, hsusp⟩ := h 2 (by decide +kernel) (by decide) 3 (by omega) fun u h1 h2 => by omega
  exact absurd (hsusp halert) (by simp [noStatus])

end ObjDetAxiSlave

end SuspiciousPackage
