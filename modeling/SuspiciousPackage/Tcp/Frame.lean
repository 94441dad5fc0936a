import SuspiciousPackage.Tcp.Runs

/-!
# Tcp.Frame — what a call leaves alone

`Keeps c s s'` says that block `c` holds what it held, on the list it was on.  A call keeps every block but the one it is
made with, but for a connection that `tcp_alloc` or the slow timer gives up; so a block that is bound or listens stays as
it is whatever else is called (`Sane.run_keeps`).
-/

namespace SuspiciousPackage

namespace Tcp

open Resource Lists

namespace Stack

variable {L : Lwip} {s s' s'' : Stack} {b c : Block} {p q : TcpPcb} {k : ListId}

structure Keeps (c : Block) (s s' : Stack) : Prop where
  heap : s'.heap c = s.heap c
  list : ∀ k, c ∈ s'.list k ↔ c ∈ s.list k

theorem Keeps.refl : Keeps c s s := ⟨rfl, fun _ => Iff.rfl⟩

theorem Keeps.trans (h : Keeps c s s') (h' : Keeps c s' s'') : Keeps c s s'' :=
  ⟨h'.heap.trans h.heap, fun k => (h'.list k).trans (h.list k)⟩

/-! ## The parts of a call -/

theorem keeps_setPcb (hc : c ≠ b) : Keeps c s (s.setPcb b p) := ⟨Function.update_of_ne hc .., fun _ => Iff.rfl⟩

theorem keeps_list {l : List Block} (hl : c ∈ l ↔ c ∈ s.list k) :
    Keeps c s { s with list := Function.update s.list k l } := by
  refine ⟨rfl, fun j => ?_⟩
  show c ∈ Function.update s.list k l j ↔ _
  by_cases hj : j = k
  · subst hj
    rw [Function.update_self, hl]
  · rw [Function.update_of_ne hj]

theorem keeps_reg (hc : c ≠ b) : Keeps c s (s.reg L k b) :=
  keeps_list (by rw [(L.tcpReg_perm _ b).mem_iff, List.mem_cons, or_iff_right hc])

theorem keeps_rmv (hk : ∀ j, j ≠ k → b ∉ s.list j) (hc : c ≠ b) : Keeps c s (s.rmv L k b) := by
  rw [rmv_eq hk]
  exact keeps_list (by rw [(L.tcpRmv_perm _ b).mem_iff, List.mem_erase_of_ne hc])

theorem keeps_free (hc : c ≠ b) (hs : s.free b = some s') : Keeps c s s' := by
  unfold free at hs
  obtain ⟨p, -, rfl⟩ := Option.map_eq_some_iff.mp hs
  exact ⟨Function.update_of_ne hc .., fun _ => Iff.rfl⟩

theorem keeps_portOrNew (port : BitVec 16) : Keeps c s (s.portOrNew port).1 := by
  unfold portOrNew
  split_ifs
  · exact ⟨rfl, fun _ => Iff.rfl⟩
  · exact Keeps.refl

theorem keeps_removeFree (hk : ∀ j, j ≠ k → b ∉ s.list j) (hc : c ≠ b)
    (hs : (s.tcpPcbRemove L k b).bind (·.free b) = some s') : Keeps c s s' := by
  obtain ⟨a, ha, hfree⟩ := Option.bind_eq_some_iff.mp hs
  unfold tcpPcbRemove at ha
  obtain ⟨p, -, ha⟩ := Option.bind_eq_some_iff.mp ha
  dsimp only at ha
  split_ifs at ha
  obtain rfl := Option.some.inj ha
  exact (keeps_rmv hk hc).trans ((keeps_setPcb hc).trans (keeps_free hc hfree))

/-! ## The calls -/

theorem keeps_bind {r : Stack × Err} {ip : BitVec 32} {port : BitVec 16} (hc : c ≠ b)
    (hr : s.tcpBind L b ip port = some r) : Keeps c s r.1 := by
  unfold tcpBind at hr
  obtain ⟨p, -, rfl⟩ := Option.map_eq_some_iff.mp hr
  split_ifs with hclosed
  · exact Keeps.refl
  · refine (keeps_portOrNew port).trans ?_
    unfold bindPort
    split_ifs
    · exact Keeps.refl
    · exact Keeps.refl
    all_goals exact (keeps_setPcb hc).trans (keeps_reg hc)

theorem Sane.keeps_listen (h : Sane L s) {r : Stack × Option Block} (hc : c ≠ b) (hp : s.heap c = some p)
    (hr : s.tcpListen L b = some r) : Keeps c s r.1 := by
  unfold tcpListen at hr
  obtain ⟨q, hq, hr⟩ := Option.bind_eq_some_iff.mp hr
  by_cases hclosed : q.state ≠ .closed
  · rw [if_pos hclosed] at hr
    obtain rfl := Option.some.inj hr
    exact Keeps.refl
  rw [if_neg hclosed] at hr
  cases hm : s.malloc L .tcpPcbListen with
  | none =>
    rw [hm] at hr
    obtain rfl := Option.some.inj hr
    exact Keeps.refl
  | some lpcb =>
    rw [hm] at hr
    have hne : c ≠ lpcb := by
      rintro rfl
      rw [(malloc_some hm).2.2] at hp
      cases hp
    obtain ⟨a, hfree, rfl⟩ := Option.map_eq_some_iff.mp hr
    refine Keeps.trans ?_ (keeps_reg hne)
    by_cases hport : q.localPort ≠ 0
    · have hk := h.off_other hq (home_eq_bound.mpr (not_not.mp hclosed))
      rw [if_pos hport] at hfree
      exact (keeps_setPcb hne).trans ((keeps_rmv (s := s.setPcb lpcb _) hk hc).trans (keeps_free hc hfree))
    · rw [if_neg hport] at hfree
      exact (keeps_setPcb hne).trans (keeps_free hc hfree)

theorem keeps_connectFrom {oldLocalPort : BitVec 16} {route : Option Netif} {enqueue : Err}
    (hk : ∀ j, j ≠ .bound → b ∉ s.list j) (hc : c ≠ b) :
    Keeps c s (s.connectFrom L b p oldLocalPort route enqueue).1 := by
  unfold connectFrom
  dsimp only
  split_ifs
  · exact keeps_setPcb hc
  · exact keeps_setPcb hc
  · exact (keeps_setPcb hc).trans ((keeps_rmv (s := s.setPcb b _) hk hc).trans (keeps_reg hc))
  · exact (keeps_setPcb hc).trans (keeps_reg hc)

theorem Sane.keeps_connect (h : Sane L s) {r : Stack × Err} {ipaddr : Option (BitVec 32)} {port : BitVec 16}
    {route : Option Netif} {enqueue : Err} (hc : c ≠ b) (hr : s.tcpConnect L b ipaddr port route enqueue = some r) :
    Keeps c s r.1 := by
  unfold tcpConnect at hr
  obtain ⟨p, hp, rfl⟩ := Option.map_eq_some_iff.mp hr
  split_ifs with hclosed
  · exact Keeps.refl
  cases ipaddr with
  | none => exact Keeps.refl
  | some ip =>
    dsimp only
    cases localAddress p route with
    | none => exact keeps_setPcb hc
    | some localIp =>
      have hk := h.off_other hp (home_eq_bound.mpr (not_not.mp hclosed))
      obtain ⟨-, -, hlist, -⟩ := h.portOrNew p.localPort
      exact (keeps_portOrNew p.localPort).trans (keeps_connectFrom (by rwa [hlist]) hc)

theorem Sane.keeps_closeSwitch (h : Sane L s) (hp : s.heap b = some p) {r : Stack × Err} {sendFin : Err} (hc : c ≠ b)
    (hr : s.closeSwitch L b p sendFin = some r) : Keeps c s r.1 := by
  unfold Stack.closeSwitch at hr
  cases hst : p.state <;> rw [hst] at hr
  case closed =>
    obtain ⟨a, hfree, rfl⟩ := Option.map_eq_some_iff.mp hr
    split_ifs at hfree
    · exact (keeps_rmv (h.off_other hp (home_eq_bound.mpr hst)) hc).trans (keeps_free hc hfree)
    · exact keeps_free hc hfree
  case listen | synSent =>
    obtain ⟨a, hfree, rfl⟩ := Option.map_eq_some_iff.mp hr
    exact keeps_removeFree (h.off_other hp (by rw [hst]; rfl)) hc hfree
  case synRcvd | established | closeWait =>
    obtain rfl := Option.some.inj hr
    dsimp only
    split_ifs
    · exact keeps_setPcb hc
    · exact Keeps.refl
  all_goals
    obtain rfl := Option.some.inj hr
    exact Keeps.refl

theorem Sane.keeps_closeReset (h : Sane L s) (hp : s.heap b = some p) (hst : p.state = .established ∨ p.state = .closeWait)
    {r : Stack × Err} (hc : c ≠ b) (hr : s.closeReset L b p = some r) : Keeps c s r.1 := by
  have hk := h.off_other hp (k := .active) (by rcases hst with hst | hst <;> rw [hst] <;> rfl)
  have hoff : Keeps c s ((s.setPcb b (purge p)).rmv L .active b) :=
    (keeps_setPcb hc).trans (keeps_rmv (s := s.setPcb b _) hk hc)
  unfold Stack.closeReset at hr
  dsimp only at hr
  split_ifs at hr
  · obtain rfl := Option.some.inj hr
    exact hoff.trans ((keeps_setPcb hc).trans (keeps_reg hc))
  · obtain ⟨a, hfree, rfl⟩ := Option.map_eq_some_iff.mp hr
    exact hoff.trans (keeps_free hc hfree)

theorem Sane.keeps_closeShutdown (h : Sane L s) {r : Stack × Err} {rst : Bool} {sendFin : Err} (hc : c ≠ b)
    (hr : s.tcpCloseShutdown L b rst sendFin = some r) : Keeps c s r.1 := by
  unfold tcpCloseShutdown at hr
  obtain ⟨p, hp, hr⟩ := Option.bind_eq_some_iff.mp hr
  split_ifs at hr with hunread
  · exact h.keeps_closeReset hp hunread.2.1 hc hr
  · exact h.keeps_closeSwitch hp hc hr

theorem Sane.keeps_close (h : Sane L s) {r : Stack × Err} {sendFin : Err} (hc : c ≠ b)
    (hr : s.tcpClose L b sendFin = some r) : Keeps c s r.1 := by
  unfold tcpClose at hr
  obtain ⟨p, hp, hr⟩ := Option.bind_eq_some_iff.mp hr
  split_ifs at hr
  · exact (keeps_setPcb hc).trans ((h.rxClose hp).keeps_closeShutdown hc hr)
  · exact h.keeps_closeShutdown hc hr

theorem Sane.keeps_shutdown (h : Sane L s) {r : Stack × Err} {shutRx shutTx : Bool} {sendFin : Err} (hc : c ≠ b)
    (hr : s.tcpShutdown L b shutRx shutTx sendFin = some r) : Keeps c s r.1 := by
  unfold tcpShutdown at hr
  obtain ⟨p, hp, hr⟩ := Option.bind_eq_some_iff.mp hr
  split_ifs at hr
  · obtain rfl := Option.some.inj hr
    exact Keeps.refl
  · exact (keeps_setPcb hc).trans ((h.rxClose hp).keeps_closeShutdown hc hr)
  · obtain rfl := Option.some.inj hr
    exact keeps_setPcb hc
  · exact h.keeps_closeShutdown hc hr
  all_goals
    obtain rfl := Option.some.inj hr
    exact Keeps.refl

theorem Sane.keeps_abort (h : Sane L s) (ha : s.Allowed (.abort b)) (hc : c ≠ b) (hs : s.tcpAbort L b = some s') :
    Keeps c s s' := by
  obtain ⟨p, hp, hlisten, hno⟩ := ha
  rw [Option.mem_def] at hp
  unfold tcpAbort tcpAbandon at hs
  rw [hp, Option.bind_some, if_neg hlisten] at hs
  split_ifs at hs with htw
  · exact keeps_removeFree (h.off_other hp (by rw [htw]; rfl)) hc hs
  · exact keeps_removeFree (h.off_active hp hlisten htw hno) hc hs

/-- Bound, or closed and on no list, or listening: what nobody gives up for a new connection, and no timer removes. -/
def Lasting (p : TcpPcb) : Prop := p.state = .closed ∨ p.state = .listen

theorem Lasting.home_ne (h : Lasting p) : p.state.home ≠ .active ∧ p.state.home ≠ .timeWait := by
  rcases h with h | h <;> rw [h] <;> decide

theorem Sane.keeps_alloc (h : Sane L s) {r : Stack × Option Block} {prio : BitVec 8} (hp : s.heap c = some p)
    (hlast : Lasting p) (hr : s.tcpAlloc L prio = some r) : Keeps c s r.1 := by
  rcases h.alloc_renewed prio with heq | ⟨s', b, heq, -, hre, hb⟩
  · obtain rfl := Option.some.inj (hr.symm.trans heq)
    exact Keeps.refl
  · obtain rfl := Option.some.inj (hr.symm.trans heq)
    have hc : c ≠ b := by
      rintro rfl
      rcases hb with hb | hb | hb
      · rw [hp] at hb
        cases hb
      · exact hlast.home_ne.2 (h.sound.home_eq hb hp)
      · exact hlast.home_ne.1 (h.sound.home_eq hb hp)
    exact ⟨hre.heap c hc, fun k => (hre.list k c).trans (and_iff_left hc)⟩

theorem Sane.keeps_slowtmr (h : Sane L s) (hp : s.heap c = some p) (hlast : Lasting p) :
    Keeps c s (s.allTimed L) := by
  have hstay : s.expired L c = false := by
    unfold expired
    rw [hp]
    rcases hlast with hst | hst <;> simp [hst, TcpState.home]
  refine ⟨?_, fun k => ?_⟩
  · rw [h.heap_timed hp, hstay, timed_other hlast.home_ne.1, hp]
    rfl
  · rw [h.list_timed, List.mem_filter, hstay]
    simp

/-! ## Runs -/

/-- The call is made with block `c`. -/
def Uses (c : Block) : Op → Prop
  | .new _ | .slowtmr => False
  | .bind b _ _ | .listen b | .connect b _ _ _ _ | .close b _ | .shutdown b _ _ _ | .abort b | .arg b _
  | .accept b _ => b = c

/-- **One call** keeps a lasting block that it is not made with. -/
theorem Sane.keeps_step (h : Sane L s) {op : Op} (ha : s.Allowed op) (hp : s.heap c = some p) (hlast : Lasting p)
    (hop : ¬ Uses c op) (hstep : s.step L op = some s') : Keeps c s s' := by
  cases op with
  | new prio =>
    obtain ⟨r, hr, rfl⟩ := Option.map_eq_some_iff.mp hstep
    exact h.keeps_alloc hp hlast hr
  | bind b ip port =>
    obtain ⟨r, hr, rfl⟩ := Option.map_eq_some_iff.mp hstep
    exact keeps_bind (Ne.symm hop) hr
  | listen b =>
    obtain ⟨r, hr, rfl⟩ := Option.map_eq_some_iff.mp hstep
    exact h.keeps_listen (Ne.symm hop) hp hr
  | connect b ipaddr port route enqueue =>
    obtain ⟨r, hr, rfl⟩ := Option.map_eq_some_iff.mp hstep
    exact h.keeps_connect (Ne.symm hop) hr
  | close b sendFin =>
    obtain ⟨r, hr, rfl⟩ := Option.map_eq_some_iff.mp hstep
    exact h.keeps_close (Ne.symm hop) hr
  | shutdown b shutRx shutTx sendFin =>
    obtain ⟨r, hr, rfl⟩ := Option.map_eq_some_iff.mp hstep
    exact h.keeps_shutdown (Ne.symm hop) hr
  | abort b => exact h.keeps_abort ha (Ne.symm hop) hstep
  | arg b arg =>
    obtain ⟨q, -, rfl⟩ := Option.map_eq_some_iff.mp hstep
    exact keeps_setPcb (Ne.symm hop)
  | accept b accept =>
    obtain ⟨q, -, rfl⟩ := Option.map_eq_some_iff.mp hstep
    exact keeps_setPcb (Ne.symm hop)
  | slowtmr =>
    obtain rfl := Option.some.inj (h.tcpSlowtmr_eq.symm.trans hstep)
    exact h.keeps_slowtmr hp hlast

/-- **Whatever else is called**, a lasting block stays as it is. -/
theorem Sane.run_keeps {ops : List (TcpOut × Op)} (h : Sane L s) (hops : Obeys L ops s) (hp : s.heap c = some p) (hlast : Lasting p)
    (huse : ∀ call ∈ ops, ¬ Uses c call.2) (hrun : run L ops s = some s') : Sane L s' ∧ Keeps c s s' := by
  induction ops generalizing s with
  | nil =>
    obtain rfl := Option.some.inj hrun
    exact ⟨h, Keeps.refl⟩
  | cons call ops ih =>
    have hnow : Sane (L.answering call.1) s := sane_answering.mpr h
    obtain ⟨a, hstep, hsane⟩ := hnow.step hops.1
    have hkeep := hnow.keeps_step hops.1 hp hlast (huse call (by simp)) hstep
    rw [run, hstep, Option.bind_some] at hrun
    obtain ⟨hsane', hkeep'⟩ := ih (sane_answering.mp hsane) (hops.2 a hstep) (hkeep.heap.trans hp) (fun o ho => huse o (by simp [ho])) hrun
    exact ⟨hsane', hkeep.trans hkeep'⟩

end Stack

end Tcp

end SuspiciousPackage
