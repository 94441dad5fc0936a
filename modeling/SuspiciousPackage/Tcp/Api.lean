import SuspiciousPackage.Tcp.Sane

/-!
# Tcp.Api — what the functions do to the lists

Each function of `tcp.c` comes to its end and keeps the lists in order, with no use of a freed block and no failed
assertion, when the application calls it on a block it may use.
-/

namespace SuspiciousPackage

namespace Tcp

open Resource Lists

namespace Stack

variable {L : Lwip} {s : Stack} {b : Block} {p : TcpPcb}

/-! ## Binding, listening, connecting -/

theorem mem_listed_of_open {c : Block} (h : s.Open c) : c ∈ s.listed := by
  unfold listed
  rcases h with h | h <;> simp [h]

/-- An address found free meets none that is bound or listening. -/
theorem not_clash_of_not_usesAddress {ip : BitVec 32} {port : BitVec 16} (hfree : s.usesAddress ip port = false)
    {q : TcpPcb} (hport : q.localPort = port) (hip : ip = 0 ∨ q.localIp = ip) {c : Block} {r : TcpPcb} (ho : s.Open c)
    (hc : s.heap c = some r) : ¬ Clash q r := by
  rintro ⟨h1, -, h3⟩
  have hno := List.any_eq_false.mp hfree c (mem_listed_of_open ho)
  rw [hc, Option.any_some] at hno
  simp only [Bool.and_eq_true, Bool.or_eq_true, beq_iff_eq] at hno
  refine hno ⟨h1.symm.trans hport, ?_⟩
  rcases hip with hip | hip
  · exact Or.inl (Or.inr hip)
  · rcases h3 with h3 | h3 | h3
    · exact Or.inl (Or.inr (hip.symm.trans h3))
    · exact Or.inl (Or.inl h3)
    · exact Or.inr (h3.symm.trans hip)

/-- Looking for a port changes nothing but the last port given out. -/
theorem Sane.portOrNew (h : Sane L s) (port : BitVec 16) :
    Sane L (s.portOrNew port).1 ∧ (s.portOrNew port).1.heap = s.heap ∧ (s.portOrNew port).1.list = s.list ∧
      (s.portOrNew port).1.tcpTimerCtr = s.tcpTimerCtr := by
  unfold Stack.portOrNew
  split_ifs
  · obtain ⟨port', -, heq, -⟩ := tcpNewPort_eq h.port
    exact ⟨h.tcpNewPort, by rw [heq], by rw [heq], by rw [heq]⟩
  · exact ⟨h, rfl, rfl, rfl⟩

/-- A closed block has no segments. -/
theorem Sane.noSegs_of_closed (h : Sane L s) (hb : s.heap b = some p) (hclosed : p.state = .closed) : p.tx.NoSegs :=
  h.segs b p hb (by rw [hclosed]; decide)

theorem Sane.bindPort (h : Sane L s) (hb : s.heap b = some p) (hclosed : p.state = .closed) (hno : b ∉ s.list .bound)
    (ip : BitVec 32) (port : BitVec 16) : Sane L (s.bindPort L b p ip port).1 := by
  have hsegs := h.noSegs_of_closed hb hclosed
  unfold Stack.bindPort
  split_ifs with h0 huse hip
  · exact h
  · exact h
  all_goals
    refine h.enter (h.off hb hclosed hno) (L.tcpReg_perm _ b) ⟨fun k hk => ?_, fun hk => ?_, h.pool b p hb, h.index b p hb,
      fun _ => h0, fun _ c q _ ho hq => not_clash_of_not_usesAddress (Bool.eq_false_of_not_eq_true huse) rfl ?_ ho hq,
      fun hk => ?_, fun _ => hsegs⟩
    · rw [← Option.some.inj hk, hclosed]
      rfl
    · cases hk
    rotate_left
    · cases hk
  · exact Or.inl hip
  · exact Or.inr rfl

/-- **`tcp_bind`** -/
theorem Sane.bind (h : Sane L s) (hb : s.heap b = some p) (hno : p.state = .closed → b ∉ s.list .bound) (ip : BitVec 32)
    (port : BitVec 16) : ∃ r, s.tcpBind L b ip port = some r ∧ Sane L r.1 := by
  unfold tcpBind
  rw [hb, Option.map_some]
  refine ⟨_, rfl, ?_⟩
  obtain ⟨hport, hheap, hlist, -⟩ := h.portOrNew port
  by_cases hclosed : p.state = .closed
  · rw [if_neg (not_not_intro hclosed)]
    exact hport.bindPort (hheap ▸ hb) hclosed (hlist ▸ hno hclosed) ip _
  · rw [if_pos hclosed]
    exact h

theorem Sane.pool_ne (h : Sane L s) (hb : s.heap b = some p) (hstate : p.state ≠ .listen) : b.pool ≠ .tcpPcbListen :=
  fun hp => hstate ((h.pool b p hb).mp hp)

/-- A block that is bound keeps its port. -/
theorem Sane.portOrNew_of_open (h : Sane L s) (hb : s.heap b = some p) (hclosed : p.state = .closed) (ho : s.Open b) :
    (s.portOrNew p.localPort).2 = p.localPort := by
  have hbound : b ∈ s.list .bound := ho.resolve_right (h.not_mem hb (by rw [hclosed]; decide))
  unfold Stack.portOrNew
  rw [if_neg (h.bound b hbound p hb)]

/-- The address of the interface is taken only by a block that has none. -/
theorem localAddress_eq {route : Option Netif} {localIp : BitVec 32} (h : localAddress p route = some localIp) :
    localIp = p.localIp ∨ p.localIp = 0 := by
  unfold localAddress at h
  split_ifs at h with h0
  · exact Or.inr h0
  · exact Or.inl (Option.some.inj h).symm

/-- **`tcp_connect`** -/
theorem Sane.connect (h : Sane L s) (hb : s.heap b = some p)
    (hdue : p.state = .closed → p.lastTimer ≠ s.tcpTimerCtr + 1) (ipaddr : Option (BitVec 32)) (port : BitVec 16)
    (route : Option Netif) (enqueue : Err) :
    ∃ r, s.tcpConnect L b ipaddr port route enqueue = some r ∧ Sane L r.1 := by
  unfold tcpConnect
  rw [hb, Option.map_some]
  refine ⟨_, rfl, ?_⟩
  by_cases hclosed : p.state = .closed
  swap
  · rw [if_pos hclosed]
    exact h
  rw [if_neg (not_not_intro hclosed)]
  cases ipaddr with
  | none => exact h
  | some ip =>
  dsimp only
  cases hlocal : localAddress p route with
  | none => exact h.setPcb hb rfl (fun _ => rfl) (Or.inl rfl) rfl fun _ hs => hs
  | some localIp =>
    obtain ⟨hport, hheap, hlist, hctr⟩ := h.portOrNew p.localPort
    have hkeep : (s.portOrNew p.localPort).1.Open b → (s.portOrNew p.localPort).2 = p.localPort := by
      intro ho
      refine h.portOrNew_of_open hb hclosed ?_
      unfold Open at ho ⊢
      rwa [hlist] at ho
    have hip := localAddress_eq hlocal
    have hb' : (s.portOrNew p.localPort).1.heap b = some p := hheap ▸ hb
    have hhome : ∀ j, j ≠ .bound → b ∉ (s.portOrNew p.localPort).1.list j := fun j hj =>
      hport.not_mem hb' (by rw [hclosed]; exact hj)
    have hzero : p.localPort = 0 → b ∉ (s.portOrNew p.localPort).1.list .bound :=
      fun h0 hmem => hport.bound b hmem p hb' h0
    have hpool : b.pool ≠ .tcpPcbListen := h.pool_ne hb (by rw [hclosed]; decide)
    rw [← hctr] at hdue
    dsimp only
    generalize s.portOrNew p.localPort = r at *
    unfold connectFrom
    dsimp only
    split_ifs with h0 hq hold
    · exact hport.setPcb hb' rfl hkeep hip rfl fun _ hs => hs
    · exact hport.setPcb hb' rfl hkeep hip rfl fun _ hs => hs
    · rw [rmv_eq (s := r.1.setPcb b _) hhome]
      exact hport.move hhome (L.tcpRmv_perm _ b) (Or.inl rfl) (L.tcpReg_perm _ b) rfl hpool (h.index b p hb)
        (fun _ => hdue hclosed) fun hk => absurd rfl hk
    · have hoff : ∀ j, b ∉ r.1.list j := hport.off hb' hclosed (hzero (not_not.mp hold))
      exact hport.enter hoff (L.tcpReg_perm _ b) (Fits.connected (Or.inl rfl) rfl hpool (h.index b p hb)
        (fun _ => hdue hclosed) fun hk => absurd rfl hk)

theorem free_eq (hb : s.heap b = some p) : s.free b = some { s with heap := Function.update s.heap b none } := by
  unfold free
  rw [hb]
  rfl

theorem malloc_some {k : Pool} (hm : s.malloc L k = some b) :
    b.pool = k ∧ b.index < L.memp b.pool ∧ s.heap b = none := by
  obtain ⟨hpool, hindex, hused⟩ := L.malloc_some k _ b hm
  exact ⟨hpool, hpool ▸ hindex, Option.not_isSome_iff_eq_none.mp (by rw [hused]; decide)⟩

/-- A new block listens. -/
theorem Sane.enter_listen (h : Sane L s) (hb : s.heap b = none) (hpool : b.pool = .tcpPcbListen)
    (hindex : b.index < L.memp b.pool) (hstate : p.state = .listen) (hsegs : p.tx.NoSegs)
    (haddr : ∀ c q, s.Open c → s.heap c = some q → ¬ Clash p q) :
    Sane L { s with
      heap := Function.update s.heap b (some p), list := Function.update s.list .listen (L.tcpReg (s.list .listen) b) } := by
  refine h.enter (h.sound.not_mem_of_free hb) (L.tcpReg_perm _ b) ⟨fun k hk => ?_, fun hk => ?_, ?_, hindex,
    fun hk => ?_, ?_, fun hk => ?_, fun _ => hsegs⟩
  · rw [← Option.some.inj hk, hstate]
    rfl
  · cases hk
  · exact iff_of_true hpool hstate
  · cases hk
  · exact fun _ c q _ ho hq => haddr c q ho hq
  · cases hk

/-- **`tcp_listen`** -/
theorem Sane.listen (h : Sane L s) (hb : s.heap b = some p)
    (hallow : p.state = .closed → b ∈ s.list .bound ∨ p.localPort = 0) : ∃ r, s.tcpListen L b = some r ∧ Sane L r.1 := by
  unfold tcpListen
  rw [hb, Option.bind_some]
  by_cases hclosed : p.state = .closed
  swap
  · rw [if_pos hclosed]
    exact ⟨_, rfl, h⟩
  rw [if_neg (not_not_intro hclosed)]
  cases hm : s.malloc L .tcpPcbListen with
  | none => exact ⟨_, rfl, h⟩
  | some lpcb =>
    obtain ⟨hpool, hindex, hfree⟩ := malloc_some hm
    have hne : lpcb ≠ b := by
      rintro rfl
      rw [hb] at hfree
      cases hfree
    have haddr : ∀ c q, c ≠ b → s.Open c → s.heap c = some q → ¬ Clash p q := by
      intro c q hc ho hq hclash
      rcases hallow hclosed with hbound | h0
      · exact h.addresses b c p q hc.symm (Or.inl hbound) ho hb hq hclash
      · exact hclash.2.1 h0
    dsimp only
    generalize hlp : TcpPcb.mk .listen p.prio p.callbackArg .tcpAcceptNull p.localIp p.localPort 0 0 p.keepalive false 0 0
      0 0 0 false 0 .zero = lp
    -- the old block is freed first, then the new one comes in
    have hlast : ∀ a : Stack, Sane L a → a.heap = Function.update s.heap b none → (∀ c, a.Open c → s.Open c) →
        Sane L { a with
          heap := Function.update (Function.update s.heap lpcb (some lp)) b none
          list := Function.update a.list .listen (L.tcpReg (a.list .listen) lpcb) } := by
      intro a ha hheap hopen
      have hlfree : a.heap lpcb = none := by rw [hheap, Function.update_of_ne hne, hfree]
      have hput := ha.enter_listen hlfree hpool hindex (p := lp) (L := L) (by rw [← hlp])
        (by rw [← hlp]; exact ⟨rfl, rfl, rfl⟩) ?_
      · rw [hheap, Function.update_comm hne.symm] at hput
        exact hput
      · intro c q ho hq
        have hcb : c ≠ b := by
          rintro rfl
          rw [hheap, Function.update_self] at hq
          cases hq
        rw [hheap, Function.update_of_ne hcb] at hq
        rw [← hlp]
        exact haddr c q hcb (hopen c ho) hq
    have hkept : Function.update s.heap lpcb (some lp) b = some p := by rw [Function.update_of_ne hne.symm, hb]
    by_cases h0 : p.localPort = 0
    · rw [if_neg (not_not_intro h0), free_eq (show (s.setPcb lpcb lp).heap b = some p from hkept), Option.map_some]
      refine ⟨_, rfl, ?_⟩
      exact hlast { s with heap := Function.update s.heap b none }
        (h.discard (h.off hb hclosed fun hmem => h.bound b hmem p hb h0)) rfl fun c ho => ho
    · have hhome : ∀ j, j ≠ .bound → b ∉ s.list j := h.off_other hb (home_eq_bound.mpr hclosed)
      rw [if_pos h0, free_eq (show ((s.setPcb lpcb lp).rmv L .bound b).heap b = some p from hkept), Option.map_some,
        rmv_eq (s := s.setPcb lpcb lp) hhome]
      refine ⟨_, rfl, ?_⟩
      refine hlast { s with
        heap := Function.update s.heap b none, list := Function.update s.list .bound (L.tcpRmv (s.list .bound) b) }
        (h.take hhome (L.tcpRmv_perm _ b)) rfl fun c ho => ?_
      rcases ho with hc | hc
      · exact Or.inl (List.mem_of_mem_erase ((L.tcpRmv_perm _ b).mem_iff.mp hc))
      · exact Or.inr hc

/-- **`tcp_arg`** -/
theorem Sane.arg (h : Sane L s) (hb : s.heap b = some p) (arg : ℕ) : ∃ s', s.tcpArg b arg = some s' ∧ Sane L s' := by
  unfold tcpArg
  rw [hb, Option.map_some]
  exact ⟨_, rfl, h.setPcb hb rfl (fun _ => rfl) (Or.inl rfl) rfl fun _ hs => hs⟩

/-- **`tcp_accept`** -/
theorem Sane.accept (h : Sane L s) (hb : s.heap b = some p) (accept : Accept) :
    ∃ s', s.tcpAccept b accept = some s' ∧ Sane L s' := by
  unfold tcpAccept
  rw [hb, Option.map_some]
  exact ⟨_, rfl, h.setPcb hb rfl (fun _ => rfl) (Or.inl rfl) rfl fun _ hs => hs⟩

/-! ## Closing -/

/-- No segments leak from a block that is removed. -/
theorem Sane.noSegs_removed (h : Sane L s) (hb : s.heap b = some p) : (ackDelayed L b (purge p)).tx.NoSegs := by
  have hpurged : (purge p).tx.NoSegs := by
    unfold purge
    split_ifs with hst
    · exact h.segs b p hb (by rcases hst with hst | hst | hst <;> rw [hst] <;> decide)
    · exact ⟨rfl, rfl, rfl⟩
  unfold ackDelayed
  split_ifs
  · exact L.tcpOutput_noSegs _ _ hpurged
  · exact hpurged

/-- A block removed and freed. -/
theorem Sane.remove_free (h : Sane L s) (hb : s.heap b = some p) (k : ListId) :
    (s.tcpPcbRemove L k b).bind (·.free b) =
      some { s with heap := Function.update s.heap b none, list := (s.rmv L k b).list } := by
  unfold tcpPcbRemove
  dsimp only
  rw [hb, Option.bind_some, if_neg (not_and_of_not_right _ (not_not_intro (h.noSegs_removed hb))), Option.bind_some,
    free_eq (Function.update_self ..)]
  simp only [Stack.setPcb, rmv, Function.update_idem]

/-- It is on no list but the one named. -/
theorem Sane.remove_free_home (h : Sane L s) (hb : s.heap b = some p) {k : ListId} (hk : ∀ j, j ≠ k → b ∉ s.list j) :
    (s.tcpPcbRemove L k b).bind (·.free b) =
      some { s with
        heap := Function.update s.heap b none, list := Function.update s.list k (L.tcpRmv (s.list k) b) } := by
  rw [h.remove_free hb, rmv_eq hk]

theorem Sane.removed (h : Sane L s) (hb : s.heap b = some p) {k : ListId} (hk : ∀ j, j ≠ k → b ∉ s.list j) :
    ∃ s', (s.tcpPcbRemove L k b).bind (·.free b) = some s' ∧ Sane L s' :=
  ⟨_, h.remove_free_home hb hk, h.take hk (L.tcpRmv_perm _ b)⟩

/-- A connection goes on in another state, once its FIN is sent. -/
theorem Sane.finSent (h : Sane L s) (hb : s.heap b = some p) (hk : p.state.home = .active) {st : TcpState}
    (hst : st.home = .active) : Sane L (s.setPcb b (finSent L b st p)) :=
  h.setPcb hb (hst.trans hk.symm) (fun _ => rfl) (Or.inl rfl) rfl fun hx => absurd hst hx

theorem Sane.closeSwitch (h : Sane L s) (hb : s.heap b = some p) (sendFin : Err) :
    ∃ r, s.closeSwitch L b p sendFin = some r ∧ Sane L r.1 := by
  unfold Stack.closeSwitch
  cases hst : p.state with
  | closed =>
    have hhome := h.off_other hb (home_eq_bound.mpr hst)
    dsimp only
    split_ifs with h0
    · rw [free_eq (show (s.rmv L .bound b).heap b = some p from hb), Option.map_some, rmv_eq hhome]
      exact ⟨_, rfl, h.take hhome (L.tcpRmv_perm _ b)⟩
    · rw [free_eq hb, Option.map_some]
      exact ⟨_, rfl, h.discard (h.off hb hst fun hmem => h0 (h.bound b hmem p hb))⟩
  | listen =>
    obtain ⟨s', hs', hsane⟩ := h.removed hb (k := .listen) (h.off_other hb (by rw [hst]; rfl))
    dsimp only
    rw [hs', Option.map_some]
    exact ⟨_, rfl, hsane⟩
  | synSent =>
    obtain ⟨s', hs', hsane⟩ := h.removed hb (k := .active) (h.off_other hb (by rw [hst]; rfl))
    dsimp only
    rw [hs', Option.map_some]
    exact ⟨_, rfl, hsane⟩
  | synRcvd | established | closeWait =>
    refine ⟨_, rfl, ?_⟩
    dsimp only
    split_ifs
    · exact h.finSent hb (by rw [hst]; rfl) rfl
    · exact h
  | finWait1 | finWait2 | closing | lastAck | timeWait => exact ⟨_, rfl, h⟩

theorem Sane.closeReset (h : Sane L s) (hb : s.heap b = some p) (hst : p.state = .established ∨ p.state = .closeWait) :
    ∃ r, s.closeReset L b p = some r ∧ Sane L r.1 := by
  have hk : p.state.home = .active := by rcases hst with hst | hst <;> rw [hst] <;> rfl
  have hpool : b.pool ≠ .tcpPcbListen := h.pool_ne hb (by rcases hst with hst | hst <;> rw [hst] <;> decide)
  have hhome := h.off_other hb hk
  have hpurged : (purge p).tx.NoSegs := by
    unfold purge
    rw [if_neg (by rcases hst with hst | hst <;> rw [hst] <;> decide)]
    exact ⟨rfl, rfl, rfl⟩
  unfold Stack.closeReset
  dsimp only
  rw [rmv_eq (s := s.setPcb b (purge p)) hhome]
  split_ifs
  · refine ⟨_, rfl, ?_⟩
    simp only [Stack.setPcb, reg, Function.update_idem]
    exact h.move hhome (L.tcpRmv_perm _ b) (Or.inr rfl) (L.tcpReg_perm _ b) rfl hpool (h.index b p hb)
      (fun hx => by cases hx) fun _ => hpurged
  · rw [free_eq (p := purge p) (Function.update_self ..), Option.map_some]
    refine ⟨_, rfl, ?_⟩
    simp only [Stack.setPcb, Function.update_idem]
    exact h.take hhome (L.tcpRmv_perm _ b)

/-- **`tcp_close_shutdown`** -/
theorem Sane.closeShutdown (h : Sane L s) (hb : s.heap b = some p) {rst : Bool} (hrx : rst = true → p.rxClosed = true)
    (sendFin : Err) : ∃ r, s.tcpCloseShutdown L b rst sendFin = some r ∧ Sane L r.1 := by
  unfold tcpCloseShutdown
  rw [hb, Option.bind_some]
  split_ifs with hunread hrxc
  · exact h.closeReset hb hunread.2.1
  · exact absurd (hrx hunread.1) hrxc
  · exact h.closeSwitch hb sendFin

theorem Sane.rxClose (h : Sane L s) (hb : s.heap b = some p) : Sane L (s.setPcb b { p with rxClosed := true }) :=
  h.setPcb hb rfl (fun _ => rfl) (Or.inl rfl) rfl fun _ hs => hs

/-- **`tcp_close`** -/
theorem Sane.close (h : Sane L s) (hb : s.heap b = some p) (sendFin : Err) :
    ∃ r, s.tcpClose L b sendFin = some r ∧ Sane L r.1 := by
  unfold tcpClose
  rw [hb, Option.bind_some]
  split_ifs with hlisten
  · exact (h.rxClose hb).closeShutdown (Function.update_self ..) (fun _ => rfl) sendFin
  · rw [not_not] at hlisten
    unfold tcpCloseShutdown
    rw [hb, Option.bind_some, if_neg (by simp [hlisten])]
    exact h.closeSwitch hb sendFin

/-- **`tcp_shutdown`** -/
theorem Sane.shutdown (h : Sane L s) (hb : s.heap b = some p) (shutRx shutTx : Bool) (sendFin : Err) :
    ∃ r, s.tcpShutdown L b shutRx shutTx sendFin = some r ∧ Sane L r.1 := by
  unfold tcpShutdown
  rw [hb, Option.bind_some]
  split_ifs with hlisten hrx
  · exact ⟨_, rfl, h⟩
  · exact (h.rxClose hb).closeShutdown (Function.update_self ..) (fun _ => rfl) sendFin
  · exact ⟨_, rfl, h.setPcb hb rfl (fun _ => rfl) (Or.inl rfl) rfl fun _ hs => hs⟩
  · exact h.closeShutdown hb (fun hr => absurd hr hrx) sendFin
  · exact ⟨_, rfl, h⟩
  · exact ⟨_, rfl, h⟩

/-- A connection that is not in TIME-WAIT, or a block that is not bound, is on no list but that of the active ones. -/
theorem Sane.off_active (h : Sane L s) (hb : s.heap b = some p) (hlisten : p.state ≠ .listen) (htw : p.state ≠ .timeWait)
    (hno : p.state = .closed → b ∉ s.list .bound) : ∀ j, j ≠ .active → b ∉ s.list j := by
  intro j hj
  by_cases hclosed : p.state = .closed
  · exact h.off hb hclosed (hno hclosed) j
  · exact h.off_other hb (home_eq_active hclosed hlisten htw) j hj

/-- **`tcp_abort`** -/
theorem Sane.abort (h : Sane L s) (hb : s.heap b = some p) (hlisten : p.state ≠ .listen)
    (hno : p.state = .closed → b ∉ s.list .bound) : ∃ s', s.tcpAbort L b = some s' ∧ Sane L s' := by
  unfold tcpAbort tcpAbandon
  rw [hb, Option.bind_some, if_neg hlisten]
  split_ifs with htw
  · exact h.removed hb (h.off_other hb (by rw [htw]; rfl))
  · exact h.removed hb (h.off_active hb hlisten htw hno)

end Stack

end Tcp

end SuspiciousPackage
