import SuspiciousPackage.Axi.Slave

/-!
# Axi.Stages — the stages of a transaction

The write side of the slave is idle, has accepted an address, or holds a response; so is the read side.  One lemma for
each move, whatever the master does on the other side.
-/

namespace Axi

namespace Slave

variable {n : ℕ} {s : Slave n} {m : Master n} {x : BitVec 32} {a : BitVec n}

/-! ## Writes -/

inductive WriteStage (n : ℕ)
  | idle
  | accepted (addr : BitVec n)
  | responding
deriving DecidableEq, Repr

/-- The write side of `s` is in the given stage. -/
def InWrite (s : Slave n) : WriteStage n → Prop
  | .idle => s.awready = false ∧ s.wready = false ∧ s.awEn = true ∧ s.bvalid = false
  | .accepted a => s.awready = true ∧ s.wready = true ∧ s.awEn = false ∧ s.bvalid = false ∧ s.awaddr = a
  | .responding => s.awready = false ∧ s.wready = false ∧ s.awEn = false ∧ s.bvalid = true

theorem inWrite_init : (init : Slave n).InWrite .idle := ⟨rfl, rfl, rfl, rfl⟩

theorem write_stay (h : s.InWrite .idle) (hm : (m.awvalid && m.wvalid) = false) :
    (s.clock true m x).InWrite .idle := by
  obtain ⟨h1, h2, h3, h4⟩ := h
  refine ⟨?_, ?_, ?_, ?_⟩ <;> cases hav : m.awvalid <;> simp_all [clock, acceptsWrite]

theorem write_accept (h : s.InWrite .idle) (hav : m.awvalid = true) (hwv : m.wvalid = true) :
    (s.clock true m x).InWrite (.accepted m.awaddr) := by
  obtain ⟨h1, h2, h3, h4⟩ := h
  refine ⟨?_, ?_, ?_, ?_, ?_⟩ <;> simp [clock, acceptsWrite, h1, h2, h3, h4, hav, hwv]

theorem write_done (h : s.InWrite (.accepted a)) (hav : m.awvalid = true) (hwv : m.wvalid = true) :
    (s.clock true m x).InWrite .responding := by
  obtain ⟨h1, h2, h3, h4, -⟩ := h
  refine ⟨?_, ?_, ?_, ?_⟩ <;> simp [clock, acceptsWrite, h1, h2, h3, h4, hav, hwv]

theorem write_hold (h : s.InWrite .responding) (hb : m.bready = false) :
    (s.clock true m x).InWrite .responding := by
  obtain ⟨h1, h2, h3, h4⟩ := h
  refine ⟨?_, ?_, ?_, ?_⟩ <;> simp [clock, acceptsWrite, h1, h2, h3, h4, hb]

theorem write_respond (h : s.InWrite .responding) (hb : m.bready = true) :
    (s.clock true m x).InWrite .idle := by
  obtain ⟨h1, h2, h3, h4⟩ := h
  refine ⟨?_, ?_, ?_, ?_⟩ <;> simp [clock, acceptsWrite, h1, h2, h3, h4, hb]

/-- A write takes effect in the accepted stage only. -/
theorem slvRegWren_of_accepted (h : s.InWrite (.accepted a)) : s.slvRegWren m = (m.wvalid && m.awvalid) := by
  obtain ⟨h1, h2, -⟩ := h
  simp [slvRegWren, h1, h2]

theorem slvRegWren_of_wready (h : s.wready = false) : s.slvRegWren m = false := by
  simp [slvRegWren, h]

/-! ## Reads -/

inductive ReadStage (n : ℕ)
  | idle
  | accepted (addr : BitVec n)
  | responding
deriving DecidableEq, Repr

/-- The read side of `s` is in the given stage. -/
def InRead (s : Slave n) : ReadStage n → Prop
  | .idle => s.arready = false ∧ s.rvalid = false
  | .accepted a => s.arready = true ∧ s.rvalid = false ∧ s.araddr = a
  | .responding => s.arready = false ∧ s.rvalid = true

theorem inRead_init : (init : Slave n).InRead .idle := ⟨rfl, rfl⟩

theorem read_stay (h : s.InRead .idle) (hm : m.arvalid = false) : (s.clock true m x).InRead .idle := by
  obtain ⟨h1, h2⟩ := h
  refine ⟨?_, ?_⟩ <;> simp [clock, acceptsRead, h1, h2, hm]

theorem read_accept (h : s.InRead .idle) (hm : m.arvalid = true) :
    (s.clock true m x).InRead (.accepted m.araddr) := by
  obtain ⟨h1, h2⟩ := h
  refine ⟨?_, ?_, ?_⟩ <;> simp [clock, acceptsRead, h1, h2, hm]

/-- The selected word is loaded with the response. -/
theorem read_done (h : s.InRead (.accepted a)) (hm : m.arvalid = true) :
    (s.clock true m x).InRead .responding ∧ (s.clock true m x).rdata = x := by
  obtain ⟨h1, h2, -⟩ := h
  refine ⟨⟨?_, ?_⟩, ?_⟩ <;> simp [clock, acceptsRead, slvRegRden, h1, h2, hm]

theorem read_hold (h : s.InRead .responding) (hm : m.arvalid = false) (hr : m.rready = false) :
    (s.clock true m x).InRead .responding ∧ (s.clock true m x).rdata = s.rdata := by
  obtain ⟨h1, h2⟩ := h
  refine ⟨⟨?_, ?_⟩, ?_⟩ <;> simp [clock, acceptsRead, slvRegRden, h1, h2, hm, hr]

theorem read_respond (h : s.InRead .responding) (hm : m.arvalid = false) (hr : m.rready = true) :
    (s.clock true m x).InRead .idle := by
  obtain ⟨h1, h2⟩ := h
  refine ⟨?_, ?_⟩ <;> simp [clock, acceptsRead, h1, h2, hm, hr]

/-- The next address can come with the handshake of the response. -/
theorem read_respond_accept (h : s.InRead .responding) (hm : m.arvalid = true) (hr : m.rready = true) :
    (s.clock true m x).InRead (.accepted m.araddr) := by
  obtain ⟨h1, h2⟩ := h
  refine ⟨?_, ?_, ?_⟩ <;> simp [clock, acceptsRead, h1, h2, hm, hr]

/-- No response is started without an accepted address. -/
theorem rvalid_clock (ha : s.arready = false) (hr : s.rvalid = false ∨ m.rready = true) :
    (s.clock true m x).rvalid = false := by
  rcases hr with hr | hr <;> cases hv : s.rvalid <;> simp_all [clock]

end Slave

end Axi
