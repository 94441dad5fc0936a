import SuspiciousPackage.Tcp.NewPort

/-!
# Tcp.Sane — the lists are in order, whatever the application calls

`Sane` is what the loops over the lists rely on: no block that has been freed is on a list, each block is on the list of
its state and on no other one, and no two blocks that are bound or listen meet in an address; no active block looks as if
the next timer had been at it already, and one that is closed or in TIME-WAIT has no segments left.  Each function of
`tcp.c` keeps it (`Sane.bind`, `Sane.listen`, …), as long as the application obeys a few rules (`Allowed`).
-/

namespace SuspiciousPackage

namespace Tcp

open Resource Lists

/-- The two would both take a connection. -/
def Clash (p q : TcpPcb) : Prop :=
  p.localPort = q.localPort ∧ p.localPort ≠ 0 ∧ (p.localIp = 0 ∨ q.localIp = 0 ∨ p.localIp = q.localIp)

theorem Clash.symm {p q : TcpPcb} (h : Clash p q) : Clash q p := by
  obtain ⟨hport, h0, hip⟩ := h
  refine ⟨hport.symm, hport ▸ h0, ?_⟩
  rcases hip with hp | hq | hpq
  · exact Or.inr (Or.inl hp)
  · exact Or.inl hq
  · exact Or.inr (Or.inr hpq.symm)

namespace Stack

variable {L : Lwip} {s s' : Stack} {b c : Block} {p p' q : TcpPcb} {k : ListId} {place : Option ListId}

/-- Bound or listening. -/
def Open (s : Stack) (b : Block) : Prop := b ∈ s.list .bound ∨ b ∈ s.list .listen

structure Sane (L : Lwip) (s : Stack) : Prop where
  sound : s.toLists.Sound (fun p => p.state.home) (fun p => p.state = .closed)
  pool : ∀ b p, s.heap b = some p → (b.pool = .tcpPcbListen ↔ p.state = .listen)
  index : ∀ b p, s.heap b = some p → b.index < L.memp b.pool
  bound : ∀ b ∈ s.list .bound, ∀ p, s.heap b = some p → p.localPort ≠ 0
  addresses : ∀ b c p q, b ≠ c → s.Open b → s.Open c → s.heap b = some p → s.heap c = some q → ¬ Clash p q
  due : ∀ b ∈ s.list .active, ∀ p, s.heap b = some p → p.lastTimer ≠ s.tcpTimerCtr + 1
  segs : ∀ b p, s.heap b = some p → p.state.home ≠ .active → p.tx.NoSegs
  port : Dynamic s.tcpPort

theorem sane_init : Sane L init where
  sound := ⟨fun _ => List.nodup_nil, fun _ _ hb => (List.not_mem_nil hb).elim, fun _ _ hx => by cases hx⟩
  pool _ _ hx := by cases hx
  index _ _ hx := by cases hx
  bound _ hb := (List.not_mem_nil hb).elim
  addresses _ _ _ _ _ hb := by rcases hb with hb | hb <;> exact (List.not_mem_nil hb).elim
  due _ hb := (List.not_mem_nil hb).elim
  segs _ _ hx := by cases hx
  port := le_rfl

/-- Order is a matter of the blocks and the lists alone. -/
theorem sane_answering {out : TcpOut} : Sane (L.answering out) s ↔ Sane L s :=
  ⟨fun h => ⟨h.sound, h.pool, h.index, h.bound, h.addresses, h.due, h.segs, h.port⟩,
    fun h => ⟨h.sound, h.pool, h.index, h.bound, h.addresses, h.due, h.segs, h.port⟩⟩

/-! ## One block changes -/

/-- What a block may hold at a place. -/
structure Fits (L : Lwip) (s : Stack) (b : Block) (p : TcpPcb) (place : Option ListId) : Prop where
  home : ∀ k, place = some k → p.state.home = k
  loose : place = none → p.state = .closed
  pool : b.pool = .tcpPcbListen ↔ p.state = .listen
  index : b.index < L.memp b.pool
  port : place = some .bound → p.localPort ≠ 0
  address : place = some .bound ∨ place = some .listen →
    ∀ c q, c ≠ b → s.Open c → s.heap c = some q → ¬ Clash p q
  due : place = some .active → p.lastTimer ≠ s.tcpTimerCtr + 1
  segs : p.state.home ≠ .active → p.tx.NoSegs

/-- On no list. -/
theorem Fits.loose' (hclosed : p.state = .closed) (hpool : b.pool = .tcpPcbListen ↔ p.state = .listen)
    (hindex : b.index < L.memp b.pool) (hsegs : p.tx.NoSegs) : Fits L s b p none where
  home k hk := by cases hk
  loose _ := hclosed
  pool := hpool
  index := hindex
  port hk := by cases hk
  address hk := by rcases hk with hk | hk <;> cases hk
  due hk := by cases hk
  segs _ := hsegs

/-- In a connection. -/
theorem Fits.connected (hk : k = .active ∨ k = .timeWait) (hhome : p.state.home = k) (hpool : b.pool ≠ .tcpPcbListen)
    (hindex : b.index < L.memp b.pool) (hdue : k = .active → p.lastTimer ≠ s.tcpTimerCtr + 1)
    (hsegs : k ≠ .active → p.tx.NoSegs) : Fits L s b p (some k) := by
  have hne : k ≠ .bound ∧ k ≠ .listen := by rcases hk with rfl | rfl <;> decide
  refine ⟨fun j hj => hhome.trans (Option.some.inj hj), fun hj => ?_, ?_, hindex,
    fun hj => absurd (Option.some.inj hj) hne.1, ?_, fun hj => hdue (Option.some.inj hj), fun hj => hsegs (hhome ▸ hj)⟩
  · cases hj
  · refine ⟨fun hp => absurd hp hpool, fun hp => absurd ?_ hne.2⟩
    rw [← hhome, hp]
    rfl
  · rintro (hj | hj)
    · exact absurd (Option.some.inj hj) hne.1
    · exact absurd (Option.some.inj hj) hne.2

/-- **The rule for every function**: one block is rewritten, moved or freed. -/
theorem Sane.put {o : Option TcpPcb} (h : Sane L s) (hp : Put b o place s.toLists s'.toLists) (hport : Dynamic s'.tcpPort)
    (hctr : s'.tcpTimerCtr = s.tcpTimerCtr) (hfits : ∀ p, o = some p → Fits L s b p place)
    (hfree : o = none → place = none) : Sane L s' := by
  have hheap : s'.heap = Function.update s.heap b o := hp.heap
  have hopen : ∀ c, c ≠ b → s'.Open c → s.Open c := by
    intro c hc ho
    exact ho.imp (fun hl => (((hp.list _ c).mp hl).resolve_left fun hx => hc hx.1).2)
      fun hl => (((hp.list _ c).mp hl).resolve_left fun hx => hc hx.1).2
  have hself : ∀ p, s'.heap b = some p → Fits L s b p place := by
    intro p hpb
    rw [hheap, Function.update_self] at hpb
    exact hfits p hpb
  have hother : ∀ c, c ≠ b → s'.heap c = s.heap c := fun c hc => by rw [hheap, Function.update_of_ne hc]
  have hplace : s'.Open b → place = some .bound ∨ place = some .listen := by
    rintro (hl | hl)
    · exact Or.inl (((hp.list _ b).mp hl).resolve_right fun hx => hx.1 rfl).2
    · exact Or.inr (((hp.list _ b).mp hl).resolve_right fun hx => hx.1 rfl).2
  refine ⟨h.sound.put hp ?_ ?_, ?_, ?_, ?_, ?_, ?_, ?_, hport⟩
  · intro k hk
    cases ho : o with
    | none =>
      rw [hfree ho] at hk
      cases hk
    | some p => exact ⟨p, rfl, (hfits p ho).home k hk⟩
  · exact fun hnone p ho => (hfits p ho).loose hnone
  · intro c p hpc
    by_cases hc : c = b
    · subst hc
      exact (hself p hpc).pool
    · exact h.pool c p (hother c hc ▸ hpc)
  · intro c p hpc
    by_cases hc : c = b
    · subst hc
      exact (hself p hpc).index
    · exact h.index c p (hother c hc ▸ hpc)
  · intro c hl p hpc
    by_cases hc : c = b
    · subst hc
      exact (hself p hpc).port (((hp.list _ c).mp hl).resolve_right fun hx => hx.1 rfl).2
    · exact h.bound c (((hp.list _ c).mp hl).resolve_left fun hx => hc hx.1).2 p (hother c hc ▸ hpc)
  · intro c d p q hne hoc hod hpc hqd
    by_cases hc : c = b
    · subst hc
      exact (hself p hpc).address (hplace hoc) d q hne.symm (hopen d hne.symm hod) (hother d hne.symm ▸ hqd)
    · by_cases hd : d = b
      · subst hd
        exact fun hclash => (hself q hqd).address (hplace hod) c p hc (hopen c hc hoc) (hother c hc ▸ hpc) hclash.symm
      · exact h.addresses c d p q hne (hopen c hc hoc) (hopen d hd hod) (hother c hc ▸ hpc) (hother d hd ▸ hqd)
  · intro c hl p hpc
    rw [hctr]
    by_cases hc : c = b
    · subst hc
      exact (hself p hpc).due (((hp.list _ c).mp hl).resolve_right fun hx => hx.1 rfl).2
    · exact h.due c (((hp.list _ c).mp hl).resolve_left fun hx => hc hx.1).2 p (hother c hc ▸ hpc)
  · intro c p hpc
    by_cases hc : c = b
    · subst hc
      exact (hself p hpc).segs
    · exact h.segs c p (hother c hc ▸ hpc)

/-! Where a block is, by its state. -/

theorem Sane.listed (h : Sane L s) (hb : b ∈ s.list k) : ∃ p, s.heap b = some p ∧ p.state.home = k :=
  h.sound.listed k b hb

theorem Sane.not_mem (h : Sane L s) (hb : s.heap b = some p) (hk : k ≠ p.state.home) : b ∉ s.list k :=
  h.sound.not_mem hb hk.symm

theorem Sane.mem_home (h : Sane L s) (hb : s.heap b = some p) (hstate : p.state ≠ .closed) : b ∈ s.list p.state.home :=
  by_contra fun hno => hstate (h.sound.unlisted b p hb hno)

theorem Sane.off (h : Sane L s) (hb : s.heap b = some p) (hclosed : p.state = .closed) (hno : b ∉ s.list .bound)
    (k : ListId) : b ∉ s.list k := by
  by_cases hk : k = .bound
  · exact hk ▸ hno
  · exact h.not_mem hb (by rw [hclosed]; exact hk)

theorem home_eq_bound {st : TcpState} : st.home = .bound ↔ st = .closed := by
  cases st <;> decide

theorem home_eq_listen {st : TcpState} : st.home = .listen ↔ st = .listen := by
  cases st <;> decide

theorem home_eq_active {st : TcpState} (h₁ : st ≠ .closed) (h₂ : st ≠ .listen) (h₃ : st ≠ .timeWait) :
    st.home = .active := by
  cases st <;> first | rfl | contradiction

theorem Sane.off_other (h : Sane L s) (hb : s.heap b = some p) (hk : p.state.home = k) : ∀ j, j ≠ k → b ∉ s.list j :=
  fun j hj => h.not_mem hb (by rw [hk]; exact hj)

theorem rmv_list (k : ListId) : (s.rmv L k b).list k = L.tcpRmv (s.list k) b := by
  unfold rmv
  dsimp only
  rw [Function.update_self]

theorem rmv_list_of_ne {j : ListId} (hj : j ≠ k) : (s.rmv L k b).list j = cutBehind b (s.list j) := by
  unfold rmv
  dsimp only
  rw [Function.update_of_ne hj]

theorem cutBehind_of_not_mem {l : List Block} (hb : b ∉ l) : cutBehind b l = l := if_neg hb

/-- A block that is on no other list is taken from the one named, and that is all. -/
theorem rmv_eq (hk : ∀ j, j ≠ k → b ∉ s.list j) :
    s.rmv L k b = { s with list := Function.update s.list k (L.tcpRmv (s.list k) b) } := by
  have hlist : (s.rmv L k b).list = Function.update s.list k (L.tcpRmv (s.list k) b) := by
    funext j
    by_cases hj : j = k
    · rw [hj, rmv_list, Function.update_self]
    · rw [rmv_list_of_ne hj, cutBehind_of_not_mem (hk j hj), Function.update_of_ne hj]
  rw [← hlist]
  rfl

/-! The few ways in which the functions change a block. -/

theorem Sane.setPort (h : Sane L s) {port : BitVec 16} (hport : Dynamic port) : Sane L { s with tcpPort := port } :=
  ⟨h.sound, h.pool, h.index, h.bound, h.addresses, h.due, h.segs, hport⟩

theorem Sane.tcpNewPort (h : Sane L s) : Sane L s.tcpNewPort.1 := by
  obtain ⟨port, hport, heq, -⟩ := tcpNewPort_eq h.port
  rw [heq]
  exact h.setPort hport

/-- A block is rewritten where it is; its local address gets no wider. -/
theorem Sane.setPcb (h : Sane L s) (hb : s.heap b = some p) (hhome : p'.state.home = p.state.home)
    (hport : s.Open b → p'.localPort = p.localPort) (hip : p'.localIp = p.localIp ∨ p.localIp = 0)
    (hlast : p'.lastTimer = p.lastTimer) (hsegs : p'.state.home ≠ .active → p.tx.NoSegs → p'.tx.NoSegs) :
    Sane L (s.setPcb b p') := by
  have hno : ∀ j, j ≠ p.state.home → b ∉ s.list j := fun j hj => h.not_mem hb hj
  have hpool : b.pool = .tcpPcbListen ↔ p'.state = .listen := by
    rw [h.pool b p hb, ← home_eq_listen, ← home_eq_listen, hhome]
  have hleft : p'.state.home ≠ .active → p'.tx.NoSegs := fun hk => hsegs hk (h.segs b p hb (hhome ▸ hk))
  by_cases hmem : b ∈ s.list p.state.home
  · have hopen : some p.state.home = some ListId.bound ∨ some p.state.home = some ListId.listen → s.Open b :=
      Or.imp (fun hk => Option.some.inj hk ▸ hmem) fun hk => Option.some.inj hk ▸ hmem
    refine h.put (h.sound.put_write hno hmem) h.port rfl ?_ (fun ho => by cases ho)
    intro q hq
    obtain rfl := Option.some.inj hq
    refine ⟨fun k hk => hhome.trans (Option.some.inj hk), fun hk => ?_, hpool, h.index b p hb, fun hk => ?_,
      fun hk c q hc ho hq => ?_, fun hk => ?_, hleft⟩
    · cases hk
    · rw [hport (hopen (Or.inl hk))]
      exact h.bound b (Option.some.inj hk ▸ hmem) p hb
    · intro hclash
      refine h.addresses b c p q hc.symm (hopen hk) ho hb hq ?_
      obtain ⟨h1, h2, h3⟩ := hclash
      rw [hport (hopen hk)] at h1 h2
      refine ⟨h1, h2, ?_⟩
      rcases hip with hip | hip
      · rwa [hip] at h3
      · exact Or.inl hip
    · rw [hlast]
      exact h.due b (Option.some.inj hk ▸ hmem) p hb
  · have hclosed : p.state = .closed := h.sound.unlisted b p hb hmem
    have hbound : p.state.home = .bound := home_eq_bound.mpr hclosed
    refine h.put (h.sound.put_write_off (h.off hb hclosed (hbound ▸ hmem))) h.port rfl ?_ (fun ho => by cases ho)
    intro q hq
    obtain rfl := Option.some.inj hq
    have hloose : p'.state.home = .bound := hhome.trans hbound
    exact Fits.loose' (home_eq_bound.mp hloose) hpool (h.index b p hb) (hleft (by rw [hloose]; decide))

/-- A block is taken from its list and freed. -/
theorem Sane.take (h : Sane L s) (hk : ∀ j, j ≠ k → b ∉ s.list j) {l : List Block} (hl : l.Perm ((s.list k).erase b)) :
    Sane L { s with heap := Function.update s.heap b none, list := Function.update s.list k l } :=
  h.put (h.sound.put_take hk hl) h.port rfl (fun p hp => by cases hp) fun _ => rfl

/-- A block on no list is freed. -/
theorem Sane.discard (h : Sane L s) (hk : ∀ j, b ∉ s.list j) : Sane L { s with heap := Function.update s.heap b none } :=
  h.put (h.sound.put_write_off hk) h.port rfl (fun p hp => by cases hp) fun _ => rfl

/-- A block on no list is put on one. -/
theorem Sane.enter (h : Sane L s) (hk : ∀ j, b ∉ s.list j) {l : List Block} (hl : l.Perm (b :: s.list k))
    (hfits : Fits L s b p (some k)) :
    Sane L { s with heap := Function.update s.heap b (some p), list := Function.update s.list k l } :=
  h.put (h.sound.put_reg hk hl) h.port rfl (fun q hq => Option.some.inj hq ▸ hfits) fun ho => by cases ho

/-- A block is taken from one list to another. -/
theorem Sane.move (h : Sane L s) (hk : ∀ j, j ≠ k → b ∉ s.list j) {l : List Block} (hl : l.Perm ((s.list k).erase b))
    {k' : ListId} (hk' : k' = .active ∨ k' = .timeWait) {l' : List Block}
    (hl' : l'.Perm (b :: Function.update s.list k l k')) (hhome : p.state.home = k') (hpool : b.pool ≠ .tcpPcbListen)
    (hindex : b.index < L.memp b.pool) (hdue : k' = .active → p.lastTimer ≠ s.tcpTimerCtr + 1)
    (hsegs : k' ≠ .active → p.tx.NoSegs) :
    Sane L { s with
      heap := Function.update s.heap b (some p), list := Function.update (Function.update s.list k l) k' l' } := by
  have htaken := h.take hk hl
  have hoff : ∀ j, b ∉ Function.update s.list k l j :=
    htaken.sound.not_mem_of_free (Function.update_self b none s.heap)
  have hput := htaken.enter hoff hl' (Fits.connected hk' hhome hpool hindex hdue hsegs)
  simp only [Function.update_idem] at hput
  exact hput

/-- A free block comes into use, on no list. -/
theorem Sane.fresh (h : Sane L s) (hb : s.heap b = none) (hpool : b.pool = .tcpPcb) (hindex : b.index < L.memp b.pool)
    (hclosed : p.state = .closed) (hsegs : p.tx.NoSegs) : Sane L (s.setPcb b p) := by
  refine h.put (h.sound.put_write_off (h.sound.not_mem_of_free hb)) h.port rfl ?_ fun ho => by cases ho
  intro q hq
  obtain rfl := Option.some.inj hq
  refine Fits.loose' hclosed ?_ hindex hsegs
  rw [hpool, hclosed]
  decide

/-- One connection, in one of two blocks, and nothing in the other. -/
def oneConnection : Stack :=
  { init with
    heap := Function.update init.heap ⟨.tcpPcb, 0⟩ (some { init.newPcb twoBlocks 1 with state := .established })
    list := Function.update init.list .active [⟨.tcpPcb, 0⟩] }

theorem sane_oneConnection : Sane twoBlocks oneConnection :=
  sane_init.enter (fun _ => List.not_mem_nil) (List.Perm.refl _)
    (Fits.connected (Or.inl rfl) rfl (by decide) (by decide) (fun _ => by decide) (fun hk => absurd rfl hk))

end Stack

end Tcp

end SuspiciousPackage
