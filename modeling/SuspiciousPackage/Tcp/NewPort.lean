import Mathlib.Logic.Function.Iterate
import SuspiciousPackage.Tcp.Pcbs

/-!
# Tcp.NewPort — the search for a local port

`tcp_new_port` goes round the dynamic ports once, from the one after the last port given out.  `tcpNewPort_cases`: it
returns the first of them that no block on a list has, and `0` only when there is none.
-/

namespace SuspiciousPackage

namespace Tcp

namespace Stack

variable {used : BitVec 16 → Bool} {port x : BitVec 16} {n : ℕ} {s : Stack}

/-- A port of the range from `TCP_LOCAL_PORT_RANGE_START` to `TCP_LOCAL_PORT_RANGE_END`. -/
def Dynamic (port : BitVec 16) : Prop := 0xc000 ≤ port.toNat

theorem toNat_nextPort (h : Dynamic port) : (nextPort port).toNat = 0xc000 + (port.toNat - 0xc000 + 1) % 0x4000 := by
  unfold Dynamic at h
  have hlt := port.isLt
  unfold nextPort
  split_ifs with hend
  · subst hend
    rfl
  · have hne : port.toNat ≠ 0xffff := fun heq => hend (BitVec.eq_of_toNat_eq heq)
    rw [BitVec.toNat_add]
    show (port.toNat + 1) % 2 ^ 16 = _
    omega

theorem dynamic_nextPort (h : Dynamic port) : Dynamic (nextPort port) := by
  unfold Dynamic
  rw [toNat_nextPort h]
  omega

theorem dynamic_iterate (h : Dynamic port) (i : ℕ) : Dynamic (nextPort^[i] port) := by
  induction i with
  | zero => exact h
  | succ i ih =>
    rw [Function.iterate_succ_apply']
    exact dynamic_nextPort ih

/-- The ports in their order. -/
theorem toNat_iterate (h : Dynamic port) (i : ℕ) :
    (nextPort^[i] port).toNat = 0xc000 + (port.toNat - 0xc000 + i) % 0x4000 := by
  induction i with
  | zero =>
    have hlt := port.isLt
    unfold Dynamic at h
    show port.toNat = _
    omega
  | succ i ih =>
    rw [Function.iterate_succ_apply', toNat_nextPort (dynamic_iterate h i), ih]
    omega

/-- Once round. -/
theorem iterate_round (h : Dynamic port) : nextPort^[0x4000] port = port := by
  have hlt := port.isLt
  have hd : 0xc000 ≤ port.toNat := h
  refine BitVec.eq_of_toNat_eq ?_
  rw [toNat_iterate h]
  omega

/-- Every dynamic port comes up on the way. -/
theorem exists_iterate (h : Dynamic port) (hx : Dynamic x) : ∃ i, 0 < i ∧ i ≤ 0x4000 ∧ nextPort^[i] port = x := by
  have hd : 0xc000 ≤ port.toNat := h
  have hdx : 0xc000 ≤ x.toNat := hx
  have hlt := port.isLt
  have hltx := x.isLt
  refine ⟨if port.toNat < x.toNat then x.toNat - port.toNat else x.toNat + 0x4000 - port.toNat, ?_, ?_, ?_⟩
  · split_ifs <;> omega
  · split_ifs <;> omega
  · refine BitVec.eq_of_toNat_eq ?_
    rw [toNat_iterate h]
    split_ifs <;> omega

/-- **The search**: the first port that is not in use, or none within the tries left. -/
theorem newPortLoop_cases (used : BitVec 16 → Bool) (n : ℕ) (port : BitVec 16) :
    (∃ i, 0 < i ∧ i ≤ n ∧ used (nextPort^[i] port) = false ∧ (∀ j, 0 < j → j < i → used (nextPort^[j] port) = true) ∧
        newPortLoop used n port = (nextPort^[i] port, nextPort^[i] port)) ∨
      (∀ j, 0 < j → j ≤ n → used (nextPort^[j] port) = true) ∧ newPortLoop used n port = (nextPort^[n] port, 0) := by
  induction n generalizing port with
  | zero => exact Or.inr ⟨fun j h0 hj => absurd h0 (by omega), rfl⟩
  | succ n ih =>
    cases hu : used (nextPort port) with
    | false =>
      refine Or.inl ⟨1, by omega, by omega, hu, fun j h0 hj => absurd h0 (by omega), ?_⟩
      unfold newPortLoop
      rw [hu]
      rfl
    | true =>
      have hstep : newPortLoop used (n + 1) port = newPortLoop used n (nextPort port) := by
        rw [newPortLoop, hu]
        rfl
      -- the port before is the first one
      have hfirst : ∀ {k : ℕ}, (∀ j, 0 < j → j ≤ k → used (nextPort^[j] (nextPort port)) = true) →
          ∀ j, 0 < j → j ≤ k + 1 → used (nextPort^[j] port) = true := by
        intro k hk j h0 hj
        obtain ⟨j, rfl⟩ : ∃ m, j = m + 1 := ⟨j - 1, by omega⟩
        cases j with
        | zero => exact hu
        | succ j => exact hk (j + 1) (by omega) (by omega)
      rcases ih (nextPort port) with ⟨i, h0, hin, hfree, hbefore, heq⟩ | ⟨hall, heq⟩
      · refine Or.inl ⟨i + 1, by omega, by omega, hfree, fun j hj hji => ?_, hstep.trans heq⟩
        exact hfirst (k := i - 1) (fun m hm hmi => hbefore m hm (by omega)) j hj (by omega)
      · exact Or.inr ⟨hfirst hall, hstep.trans heq⟩

/-- **`tcp_new_port`.** -/
theorem tcpNewPort_cases (h : Dynamic s.tcpPort) :
    (∃ i, 0 < i ∧ i ≤ 0x4000 ∧ s.usesPort (nextPort^[i] s.tcpPort) = false ∧
        (∀ j, 0 < j → j < i → s.usesPort (nextPort^[j] s.tcpPort) = true) ∧
        s.tcpNewPort = ({ s with tcpPort := nextPort^[i] s.tcpPort }, nextPort^[i] s.tcpPort)) ∨
      (∀ port, Dynamic port → s.usesPort port = true) ∧ s.tcpNewPort = (s, 0) := by
  unfold tcpNewPort
  rcases newPortLoop_cases (fun port => s.usesPort port) 0x4000 s.tcpPort with
    ⟨i, h0, hi, hfree, hbefore, heq⟩ | ⟨hall, heq⟩
  · refine Or.inl ⟨i, h0, hi, hfree, hbefore, ?_⟩
    rw [heq]
  · refine Or.inr ⟨fun port hport => ?_, ?_⟩
    · obtain ⟨i, h0, hi, rfl⟩ := exists_iterate h hport
      exact hall i h0 hi
    · rw [heq, iterate_round h]

theorem ne_zero_of_dynamic (h : Dynamic port) : port ≠ 0 := by
  rintro rfl
  have hd : 0xc000 ≤ (0 : BitVec 16).toNat := h
  simp at hd

/-- Only the last port given out changes. -/
theorem tcpNewPort_eq (h : Dynamic s.tcpPort) :
    ∃ port, Dynamic port ∧ s.tcpNewPort.1 = { s with tcpPort := port } ∧
      (s.tcpNewPort.2 = 0 ∨ s.tcpNewPort.2 = port ∧ s.usesPort port = false) := by
  rcases tcpNewPort_cases h with ⟨i, -, -, hfree, -, heq⟩ | ⟨-, heq⟩
  · exact ⟨_, dynamic_iterate h i, by rw [heq], Or.inr ⟨by rw [heq], hfree⟩⟩
  · exact ⟨s.tcpPort, h, by rw [heq], Or.inl (by rw [heq])⟩

/-- A port that nobody has meets no address. -/
theorem usesAddress_eq_false {ip : BitVec 32} (h : s.usesPort port = false) : s.usesAddress ip port = false := by
  unfold usesPort at h
  unfold usesAddress
  rw [List.any_eq_false] at h ⊢
  intro c hc
  have hno := h c hc
  cases hheap : s.heap c with
  | none => simp
  | some p =>
    rw [hheap] at hno
    simp only [Option.any_some, beq_iff_eq] at hno
    simp [hno]

/-- **Binding to any port**: the block gets the first dynamic port after the last one given out that no block on a list
has, and that is the last one then; with none left nothing changes.  It is never told that the port is in use. -/
theorem bind_any_port {L : Lwip} {b : Block} {p : TcpPcb} (h : Dynamic s.tcpPort) (hb : s.heap b = some p)
    (hclosed : p.state = .closed) (ip : BitVec 32) :
    (∃ i, 0 < i ∧ i ≤ 0x4000 ∧ s.usesPort (nextPort^[i] s.tcpPort) = false ∧
        (∀ j, 0 < j → j < i → s.usesPort (nextPort^[j] s.tcpPort) = true) ∧
        ∃ s', s.tcpBind L b ip 0 = some (s', .ok) ∧ s'.tcpPort = nextPort^[i] s.tcpPort ∧
          s'.heap = Function.update s.heap b
            (some { p with localIp := if ip = 0 then p.localIp else ip, localPort := nextPort^[i] s.tcpPort }) ∧
          (s'.list .bound).Perm (b :: s.list .bound)) ∨
      (∀ port, Dynamic port → s.usesPort port = true) ∧ s.tcpBind L b ip 0 = some (s, .buf) := by
  have hbind : s.tcpBind L b ip 0 = some (s.tcpNewPort.1.bindPort L b p ip s.tcpNewPort.2) := by
    unfold tcpBind
    rw [hb, Option.map_some, if_neg (not_not_intro hclosed)]
    rfl
  rw [hbind]
  rcases tcpNewPort_cases h with ⟨i, h0, hi, hfree, hbefore, heq⟩ | ⟨hall, heq⟩
  · refine Or.inl ⟨i, h0, hi, hfree, hbefore, ?_⟩
    rw [heq]
    have hport := ne_zero_of_dynamic (dynamic_iterate h i)
    generalize nextPort^[i] s.tcpPort = port at *
    have huse : { s with tcpPort := port }.usesAddress ip port = false := usesAddress_eq_false hfree
    unfold bindPort
    rw [if_neg hport, if_neg (by rw [huse]; decide)]
    refine ⟨_, rfl, rfl, rfl, ?_⟩
    show (Function.update s.list .bound (L.tcpReg (s.list .bound) b) .bound).Perm _
    rw [Function.update_self]
    exact L.tcpReg_perm _ b
  · refine Or.inr ⟨hall, ?_⟩
    rw [heq]
    rfl

/-- Two blocks, one of them bound to the first dynamic port that is tried. -/
def portTaken : Stack :=
  { init with
    heap := Function.update
      (Function.update init.heap ⟨.tcpPcb, 0⟩ (some { init.newPcb twoBlocks 64 with localPort := 0xc001 }))
      ⟨.tcpPcb, 1⟩ (some (init.newPcb twoBlocks 64))
    list := Function.update init.list .bound [⟨.tcpPcb, 0⟩] }

theorem bind_any_port_first : ∃ s', portTaken.tcpBind twoBlocks ⟨.tcpPcb, 1⟩ 0 0 = some (s', .ok) ∧
    s'.tcpPort = 0xc002 := by
  have htaken : portTaken.usesPort 0xc001 = true := by decide +kernel
  have hfree : portTaken.usesPort 0xc002 = false := by decide +kernel
  rcases bind_any_port (s := portTaken) (L := twoBlocks) (b := ⟨.tcpPcb, 1⟩) (le_refl 0xc000) rfl rfl 0 with
    ⟨i, h0, -, hi, hbefore, s', hs', hport, -⟩ | ⟨hall, -⟩
  · have hne : i ≠ 1 := by
      rintro rfl
      exact absurd (htaken.symm.trans hi) (by simp)
    have hle : i ≤ 2 := by
      by_contra hgt
      exact absurd (hfree.symm.trans (hbefore 2 (by omega) (by omega))) (by simp)
    obtain rfl : i = 2 := by omega
    exact ⟨s', hs', hport.trans (by decide)⟩
  · exact absurd (hfree.symm.trans (hall 0xc002 (by unfold Dynamic; decide))) (by simp)

end Stack

end Tcp

end SuspiciousPackage
