import SuspiciousPackage.Tcp.Api

/-!
# Tcp.Slowtmr — what the slow timer leaves

`tcp_slowtmr` unlinks and frees blocks while it walks the lists.  `Overdue` is when an active connection has to go, by its
data as the timer finds them, and `timed` what becomes of one that stays; `slowtmr_exact` says that the timer does just
that, as long as the lists are in order.  `slowtmr_stumbles` is what happens to a connection whose `last_timer` is one
ahead of the counter: the walk takes it for one it has been at, and may fail behind it.
-/

namespace SuspiciousPackage

namespace Tcp

open Resource Lists

namespace Stack

variable {L : Lwip} {s s' : Stack} {b c : Block} {p q : TcpPcb} {k : ListId} {ticks : BitVec 32}

/-! ## The timers of a block -/

/-- The connection has to go: too many retransmissions, or too long without activity in its state. -/
def Overdue (L : Lwip) (ticks : BitVec 32) (p : TcpPcb) : Prop :=
  (p.state = .synSent ∧ p.tx.nrtx = L.tcpSynmaxrtx) ∨ p.tx.nrtx = L.tcpMaxrtx ∨
    (p.state = .finWait2 ∧ p.rxClosed ∧ exceeds L ticks L.tcpFinWaitTimeout p) ∨
    (p.keepalive ∧ (p.state = .established ∨ p.state = .closeWait) ∧
      exceeds L ticks (p.keepIdle + L.tcpMaxidle).toNat p) ∨
    (p.state = .synRcvd ∧ exceeds L ticks L.tcpSynRcvdTimeout p) ∨
    (p.state = .lastAck ∧ exceeds L ticks (2 * L.tcpMsl) p)

instance : Decidable (Overdue L ticks p) := inferInstanceAs (Decidable (_ ∨ _))

/-- What the timer makes of a block that stays. -/
def timed (L : Lwip) (s : Stack) (b : Block) (p : TcpPcb) : TcpPcb :=
  if p.state.home = .active then
    pollTimer L b (timers L (s.tcpTicks + 1) b { p with lastTimer := s.tcpTimerCtr + 1 }).1
  else p

/-- The block is one to go: overdue, or in TIME-WAIT for more than twice the segment lifetime. -/
def expired (L : Lwip) (s : Stack) (b : Block) : Bool :=
  (s.heap b).any fun p =>
    match p.state.home with
    | .active => decide (Overdue L (s.tcpTicks + 1) p)
    | .timeWait => exceeds L (s.tcpTicks + 1) (2 * L.tcpMsl) p
    | _ => false

/-! Each timer changes nothing but how far the transmission is. -/

theorem retransmit_eq (L : Lwip) (b : Block) (p : TcpPcb) : ∃ tx, retransmit L b p =
    ({ p with tx := tx }, decide ((p.state = .synSent ∧ p.tx.nrtx = L.tcpSynmaxrtx) ∨ p.tx.nrtx = L.tcpMaxrtx)) := by
  unfold retransmit
  split_ifs with hsyn hmax
  · exact ⟨p.tx, Prod.ext rfl (decide_eq_true (Or.inl hsyn)).symm⟩
  · exact ⟨p.tx, Prod.ext rfl (decide_eq_true (Or.inr hmax)).symm⟩
  · have hno := decide_eq_false (not_or.mpr ⟨hsyn, hmax⟩)
    unfold persistTimer
    dsimp only
    split_ifs <;> exact ⟨_, Prod.ext rfl hno.symm⟩
  · have hno := decide_eq_false (not_or.mpr ⟨hsyn, hmax⟩)
    unfold retransmissionTimer
    dsimp only
    split_ifs <;> exact ⟨_, Prod.ext rfl hno.symm⟩

theorem keepaliveTimer_eq (L : Lwip) (ticks : BitVec 32) (b : Block) (p : TcpPcb) : ∃ tx, keepaliveTimer L ticks b p =
    ({ p with tx := tx }, decide (p.keepalive ∧ (p.state = .established ∨ p.state = .closeWait) ∧
      exceeds L ticks (p.keepIdle + L.tcpMaxidle).toNat p)) := by
  unfold keepaliveTimer
  split_ifs with hopt hdur hidle
  · exact ⟨p.tx, Prod.ext rfl (decide_eq_true ⟨hopt.1, hopt.2, hdur⟩).symm⟩
  · exact ⟨_, Prod.ext rfl (decide_eq_false fun hx => hdur hx.2.2).symm⟩
  · exact ⟨p.tx, Prod.ext rfl (decide_eq_false fun hx => hdur hx.2.2).symm⟩
  · exact ⟨p.tx, Prod.ext rfl (decide_eq_false fun hx => hopt ⟨hx.1, hx.2.1⟩).symm⟩

theorem ooseqTimer_eq (L : Lwip) (ticks : BitVec 32) (p : TcpPcb) : ∃ tx, ooseqTimer L ticks p = { p with tx := tx } := by
  unfold ooseqTimer
  split_ifs
  · exact ⟨_, rfl⟩
  · exact ⟨p.tx, rfl⟩

/-- **The timers of an active block** find it overdue exactly when it is. -/
theorem timers_eq (L : Lwip) (ticks : BitVec 32) (b : Block) (p : TcpPcb) :
    ∃ tx, timers L ticks b p = ({ p with tx := tx }, decide (Overdue L ticks p)) := by
  obtain ⟨tx₁, h₁⟩ := retransmit_eq L b p
  obtain ⟨tx₂, h₂⟩ := keepaliveTimer_eq L ticks b { p with tx := tx₁ }
  obtain ⟨tx₃, h₃⟩ := ooseqTimer_eq L ticks { p with tx := tx₂ }
  -- none of them looks at what another one changes
  have hage : ∀ timeout tx, exceeds L ticks timeout { p with tx := tx } = exceeds L ticks timeout p := fun _ _ => rfl
  refine ⟨tx₃, ?_⟩
  unfold timers
  dsimp only
  rw [h₁]
  dsimp only
  rw [h₂]
  dsimp only
  rw [h₃]
  refine Prod.ext rfl (Bool.eq_iff_iff.mpr (Iff.trans ?_ decide_eq_true_iff.symm))
  unfold Overdue
  simp only [hage, Bool.or_eq_true, decide_eq_true_eq, or_assoc]

theorem pollTimer_eq (L : Lwip) (b : Block) (p : TcpPcb) :
    ∃ polltmr tx, pollTimer L b p = { p with polltmr := polltmr, tx := tx } := by
  unfold pollTimer
  dsimp only
  split_ifs
  · exact ⟨_, _, rfl⟩
  · exact ⟨_, p.tx, rfl⟩

/-- An active block stays what it is, but for its timers and the transmission. -/
theorem timed_active (hk : p.state.home = .active) : ∃ polltmr tx,
    s.timed L b p = { p with lastTimer := s.tcpTimerCtr + 1, polltmr := polltmr, tx := tx } := by
  obtain ⟨tx, htx⟩ := timers_eq L (s.tcpTicks + 1) b { p with lastTimer := s.tcpTimerCtr + 1 }
  obtain ⟨polltmr, tx', hpoll⟩ := pollTimer_eq L b { p with lastTimer := s.tcpTimerCtr + 1, tx := tx }
  refine ⟨polltmr, tx', ?_⟩
  unfold timed
  rw [if_pos hk, htx]
  exact hpoll

theorem timed_other (hk : p.state.home ≠ .active) : s.timed L b p = p := if_neg hk

/-- What stays of a block in any case. -/
theorem timed_cases (L : Lwip) (s : Stack) (b : Block) (p : TcpPcb) :
    ∃ lastTimer polltmr tx, s.timed L b p = { p with lastTimer := lastTimer, polltmr := polltmr, tx := tx } := by
  by_cases hk : p.state.home = .active
  · obtain ⟨polltmr, tx, heq⟩ := timed_active (L := L) (s := s) (b := b) hk
    exact ⟨_, polltmr, tx, heq⟩
  · exact ⟨p.lastTimer, p.polltmr, p.tx, timed_other hk⟩

theorem state_timed : (s.timed L b p).state = p.state := by
  obtain ⟨lastTimer, polltmr, tx, heq⟩ := timed_cases L s b p
  rw [heq]

/-! ## The loops -/

theorem not_failing_of_home (hk : p.state.home = .active) :
    ¬ (p.state = .closed ∨ p.state = .listen ∨ p.state = .timeWait) := by
  rintro (hst | hst | hst) <;> rw [hst] at hk <;> cases hk

theorem activeTimer_skips (hk : p.state.home = .active) (hlast : p.lastTimer = s.tcpTimerCtr + 1) :
    activeTimer L (s.tcpTicks + 1) (s.tcpTimerCtr + 1) b p = .skips := by
  unfold activeTimer
  rw [if_neg (not_failing_of_home hk), if_pos hlast]

theorem activeTimer_eq (hk : p.state.home = .active) (hdue : p.lastTimer ≠ s.tcpTimerCtr + 1) :
    activeTimer L (s.tcpTicks + 1) (s.tcpTimerCtr + 1) b p =
      if Overdue L (s.tcpTicks + 1) p then .drops else .keeps (s.timed L b p) := by
  obtain ⟨tx, htx⟩ := timers_eq L (s.tcpTicks + 1) b { p with lastTimer := s.tcpTimerCtr + 1 }
  unfold activeTimer timed
  dsimp only
  rw [if_neg (not_failing_of_home hk), if_neg hdue, if_pos hk, htx]
  simp only [decide_eq_true_eq]
  rfl

theorem timeWaitTimer_eq (hst : p.state = .timeWait) :
    timeWaitTimer L ticks b p = if exceeds L ticks (2 * L.tcpMsl) p then .drops else .keeps p := by
  unfold timeWaitTimer
  rw [if_neg (not_not_intro hst)]

theorem timeWait_of_home (hk : p.state.home = .timeWait) : p.state = .timeWait := by
  generalize p.state = st at hk ⊢
  cases st <;> first | rfl | cases hk

/-- The lists after the first loop. -/
def activeTimed (L : Lwip) (s : Stack) : Lists Block ListId TcpPcb :=
  s.toLists.walked .active (activeTimer L (s.tcpTicks + 1) (s.tcpTimerCtr + 1)) (s.list .active) []

/-- And after both. -/
def allTimed (L : Lwip) (s : Stack) : Stack where
  toLists := (s.activeTimed L).walked .timeWait (timeWaitTimer L (s.tcpTicks + 1)) ((s.activeTimed L).list .timeWait) []
  tcpPort := s.tcpPort
  tcpTicks := s.tcpTicks + 1
  tcpTimerCtr := s.tcpTimerCtr + 1

theorem Sane.activeTimer_eq (h : Sane L s) (hb : b ∈ s.list .active) (hp : s.heap b = some p) :
    activeTimer L (s.tcpTicks + 1) (s.tcpTimerCtr + 1) b p =
      if Overdue L (s.tcpTicks + 1) p then .drops else .keeps (s.timed L b p) :=
  Stack.activeTimer_eq (h.sound.home_eq hb hp) (h.due b hb p hp)

/-- **The first loop** does not fail. -/
theorem Sane.walk_active (h : Sane L s) :
    s.toLists.walk .active (activeTimer L (s.tcpTicks + 1) (s.tcpTimerCtr + 1)) = some (s.activeTimed L) := by
  refine walk_eq (h.sound.nodup _) (fun b hb => ?_) fun c d hcd hskip => ?_
  · obtain ⟨p, hp, -⟩ := h.listed hb
    refine ⟨p, hp, ?_⟩
    rw [h.activeTimer_eq hb hp]
    split_ifs <;> simp
  · -- no block has been seen before its turn
    obtain ⟨p, hp, hlook⟩ := skipped_iff.mp hskip
    rw [h.activeTimer_eq (hcd.subset (by simp)) hp] at hlook
    split_ifs at hlook

theorem Sane.sound_activeTimed (h : Sane L s) :
    (s.activeTimed L).Sound (fun p => p.state.home) (fun p => p.state = .closed) := by
  refine h.sound.walked fun b hb x y hx hy => ?_
  rw [h.activeTimer_eq hb hx] at hy
  split_ifs at hy
  · cases hy
  · obtain rfl := Option.some.inj hy
    exact congrArg TcpState.home state_timed

/-- **The second loop** does not fail. -/
theorem Sane.walk_timeWait (h : Sane L s) :
    (s.activeTimed L).walk .timeWait (timeWaitTimer L (s.tcpTicks + 1)) = some (s.allTimed L).toLists := by
  have hlook : ∀ b ∈ (s.activeTimed L).list .timeWait, ∀ p, (s.activeTimed L).heap b = some p →
      timeWaitTimer L (s.tcpTicks + 1) b p =
        if exceeds L (s.tcpTicks + 1) (2 * L.tcpMsl) p then .drops else .keeps p :=
    fun b hb p hp => timeWaitTimer_eq (timeWait_of_home (h.sound_activeTimed.home_eq hb hp))
  refine walk_eq (h.sound_activeTimed.nodup _) (fun b hb => ?_) fun c d hcd hskip => ?_
  · obtain ⟨p, hp, -⟩ := h.sound_activeTimed.listed _ b hb
    refine ⟨p, hp, ?_⟩
    rw [hlook b hb p hp]
    split_ifs <;> simp
  · obtain ⟨p, hp, hskips⟩ := skipped_iff.mp hskip
    rw [hlook c (hcd.subset (by simp)) p hp] at hskips
    split_ifs at hskips

theorem Sane.tcpSlowtmr_eq (h : Sane L s) : s.tcpSlowtmr L = some (s.allTimed L) := by
  unfold tcpSlowtmr
  dsimp only
  rw [h.walk_active, Option.bind_some, h.walk_timeWait, Option.map_some]
  rfl

/-! ## What is left -/

theorem heap_activeTimed (hb : b ∉ s.list .active) : (s.activeTimed L).heap b = s.heap b := walked_of_not_mem hb

theorem list_activeTimed (hk : k ≠ .active) : (s.activeTimed L).list k = s.list k := walked_list_of_ne hk

theorem list_allTimed (hk : k ≠ .timeWait) : (s.allTimed L).list k = (s.activeTimed L).list k := walked_list_of_ne hk

theorem heap_allTimed (hb : b ∉ s.list .timeWait) : (s.allTimed L).heap b = (s.activeTimed L).heap b :=
  walked_of_not_mem (by rwa [list_activeTimed (by decide)])

theorem Sane.heap_timed (h : Sane L s) (hp : s.heap b = some p) :
    (s.allTimed L).heap b = if s.expired L b then none else some (s.timed L b p) := by
  unfold expired
  rw [hp, Option.any_some]
  cases hk : p.state.home with
  | active =>
    have hb : b ∈ s.list .active := hk ▸ h.mem_home hp fun hst => by rw [hst] at hk; cases hk
    rw [heap_allTimed (h.off_other hp hk _ (by decide))]
    unfold activeTimed
    rw [walked_of_mem hb hp, h.activeTimer_eq hb hp]
    by_cases hover : Overdue L (s.tcpTicks + 1) p
    · rw [if_pos hover, if_pos (decide_eq_true hover)]
      rfl
    · rw [if_neg hover, if_neg (by simpa using hover)]
      rfl
  | timeWait =>
    have hb : b ∈ s.list .timeWait := hk ▸ h.mem_home hp fun hst => by rw [hst] at hk; cases hk
    have hp' : (s.activeTimed L).heap b = some p := (heap_activeTimed (h.off_other hp hk _ (by decide))).trans hp
    rw [timed_other (by rw [hk]; decide)]
    unfold allTimed
    rw [walked_of_mem (by rwa [list_activeTimed (by decide)]) hp', timeWaitTimer_eq (timeWait_of_home hk)]
    dsimp only
    split_ifs <;> rfl
  | bound | listen =>
    rw [heap_allTimed (h.off_other hp hk _ (by decide)), heap_activeTimed (h.off_other hp hk _ (by decide)), hp,
      timed_other (by rw [hk]; decide)]
    simp

theorem Sane.heap_timed_none (h : Sane L s) (hb : s.heap b = none) : (s.allTimed L).heap b = none := by
  rw [heap_allTimed (h.sound.not_mem_of_free hb _), heap_activeTimed (h.sound.not_mem_of_free hb _), hb]

theorem Sane.expired_iff (h : Sane L s) (hp : s.heap b = some p) :
    s.expired L b = true ↔ (s.allTimed L).heap b = none := by
  rw [h.heap_timed hp]
  split_ifs with hexp <;> simp [hexp]

theorem Sane.list_timed (h : Sane L s) (k : ListId) :
    (s.allTimed L).list k = (s.list k).filter fun b => !s.expired L b := by
  have hstay : k ≠ .active → k ≠ .timeWait → (s.list k).filter (fun b => !s.expired L b) = s.list k := by
    intro hka hkt
    refine List.filter_eq_self.mpr fun b hb => ?_
    obtain ⟨p, hp, hk⟩ := h.listed hb
    have hheap : (s.allTimed L).heap b = some p := by
      rw [heap_allTimed (h.off_other hp hk _ hkt.symm), heap_activeTimed (h.off_other hp hk _ hka.symm), hp]
    rw [Bool.not_eq_true', ← Bool.not_eq_true, h.expired_iff hp, hheap]
    exact Option.some_ne_none p
  cases k with
  | active =>
    rw [list_allTimed (by decide)]
    refine walked_list.trans ?_
    refine List.filter_congr fun b hb => congrArg _ (Bool.eq_iff_iff.mpr ?_)
    obtain ⟨p, hp, hk⟩ := h.listed hb
    rw [h.expired_iff hp, heap_allTimed (h.off_other hp hk _ (by decide))]
    exact (walked_eq_none hb hp).symm
  | timeWait =>
    refine walked_list.trans ?_
    rw [list_activeTimed (by decide)]
    refine List.filter_congr fun b hb => congrArg _ (Bool.eq_iff_iff.mpr ?_)
    obtain ⟨p, hp, hk⟩ := h.listed hb
    have hp' : (s.activeTimed L).heap b = some p := (heap_activeTimed (h.off_other hp hk _ (by decide))).trans hp
    rw [h.expired_iff hp]
    exact (walked_eq_none (by rwa [list_activeTimed (by decide)]) hp').symm
  | bound | listen =>
    rw [list_allTimed (by decide), list_activeTimed (by decide), hstay (by decide) (by decide)]

theorem Sane.mem_timed (h : Sane L s) (hb : b ∈ (s.allTimed L).list k) : b ∈ s.list k := by
  rw [h.list_timed] at hb
  exact List.mem_of_mem_filter hb

theorem Sane.of_heap_timed (h : Sane L s) (hq : (s.allTimed L).heap b = some q) :
    ∃ p, s.heap b = some p ∧ q = s.timed L b p := by
  cases hp : s.heap b with
  | none =>
    rw [h.heap_timed_none hp] at hq
    cases hq
  | some p =>
    rw [h.heap_timed hp] at hq
    split_ifs at hq
    exact ⟨p, rfl, (Option.some.inj hq).symm⟩

/-- **The timer keeps the lists in order.** -/
theorem Sane.slowtmr (h : Sane L s) : Sane L (s.allTimed L) where
  sound := by
    refine h.sound_activeTimed.walked fun b hb x y hx hy => ?_
    rw [timeWaitTimer_eq (timeWait_of_home (h.sound_activeTimed.home_eq hb hx))] at hy
    split_ifs at hy
    · cases hy
    · rw [Option.some.inj hy]
  pool b q hq := by
    obtain ⟨p, hp, rfl⟩ := h.of_heap_timed hq
    rw [state_timed]
    exact h.pool b p hp
  index b q hq := by
    obtain ⟨p, hp, -⟩ := h.of_heap_timed hq
    exact h.index b p hp
  bound b hb q hq := by
    obtain ⟨p, hp, rfl⟩ := h.of_heap_timed hq
    obtain ⟨lastTimer, polltmr, tx, heq⟩ := timed_cases L s b p
    rw [heq]
    exact h.bound b (h.mem_timed hb) p hp
  addresses b c p' q' hne hb hc hp' hq' := by
    obtain ⟨p, hp, rfl⟩ := h.of_heap_timed hp'
    obtain ⟨q, hq, rfl⟩ := h.of_heap_timed hq'
    obtain ⟨_, _, _, heq⟩ := timed_cases L s b p
    obtain ⟨_, _, _, heq'⟩ := timed_cases L s c q
    rw [heq, heq']
    exact h.addresses b c p q hne (hb.imp h.mem_timed h.mem_timed) (hc.imp h.mem_timed h.mem_timed) hp hq
  due b hb q hq := by
    obtain ⟨p, hp, rfl⟩ := h.of_heap_timed hq
    obtain ⟨polltmr, tx, heq⟩ := timed_active (L := L) (s := s) (b := b) (h.sound.home_eq (h.mem_timed hb) hp)
    rw [heq]
    show s.tcpTimerCtr + 1 ≠ s.tcpTimerCtr + 1 + 1
    bv_omega
  segs b q hq hk := by
    obtain ⟨p, hp, rfl⟩ := h.of_heap_timed hq
    rw [state_timed] at hk
    rw [timed_other hk]
    exact h.segs b p hp hk
  port := h.port

/-- **What the slow timer does**: it fails nowhere; the connections that have to go are free and off their lists, the rest
stays on them in the same order, and of that nothing but the timers and the transmission of active connections changes. -/
theorem slowtmr_exact (h : Sane L s) :
    ∃ s', s.tcpSlowtmr L = some s' ∧ Sane L s' ∧
      s'.tcpTicks = s.tcpTicks + 1 ∧ s'.tcpTimerCtr = s.tcpTimerCtr + 1 ∧ s'.tcpPort = s.tcpPort ∧
      (∀ k, s'.list k = (s.list k).filter fun b => !s.expired L b) ∧
      (∀ b, s.heap b = none → s'.heap b = none) ∧
      ∀ b p, s.heap b = some p → s'.heap b = (if s.expired L b then none else some (s.timed L b p)) ∧
        (p.state.home = .active → ∃ polltmr tx,
          s.timed L b p = { p with lastTimer := s.tcpTimerCtr + 1, polltmr := polltmr, tx := tx }) ∧
        (p.state.home ≠ .active → s.timed L b p = p) :=
  ⟨s.allTimed L, h.tcpSlowtmr_eq, h.slowtmr, rfl, rfl, rfl, h.list_timed, fun _ hb => h.heap_timed_none hb,
    fun _ _ hp => ⟨h.heap_timed hp, timed_active, timed_other⟩⟩

/-- A second connection, with all its retransmissions made. -/
def lostConnection : Stack :=
  let pcb := { init.newPcb twoBlocks 1 with
    state := .established, tx := { (init.newPcb twoBlocks 1).tx with nrtx := 12 } }
  { oneConnection with
    heap := Function.update oneConnection.heap ⟨.tcpPcb, 1⟩ (some pcb)
    list := Function.update oneConnection.list .active [⟨.tcpPcb, 1⟩, ⟨.tcpPcb, 0⟩] }

theorem sane_lostConnection : Sane twoBlocks lostConnection := by
  refine sane_oneConnection.enter (fun j hj => ?_) (List.Perm.refl _)
    (Fits.connected (Or.inl rfl) rfl (by decide) (by decide) (fun _ => by decide) fun hk => absurd rfl hk)
  obtain ⟨p, hp, -⟩ := sane_oneConnection.listed hj
  cases hp

theorem slowtmr_exact_connection : ∃ s', lostConnection.tcpSlowtmr twoBlocks = some s' ∧
    s'.heap ⟨.tcpPcb, 1⟩ = none ∧ s'.list .active = [⟨.tcpPcb, 0⟩] := by
  obtain ⟨s', hs', -, -, -, -, hlist, -, hheap⟩ := slowtmr_exact sane_lostConnection
  refine ⟨s', hs', ?_, ?_⟩
  · rw [(hheap ⟨.tcpPcb, 1⟩ _ rfl).1, if_pos (by decide +kernel)]
  · rw [hlist]
    decide +kernel

/-- **Where the timer stumbles**: a connection at the head of the list whose `last_timer` is one ahead of the counter is
passed over, and when the next one has to go the assertion on the head of the list fails. -/
theorem slowtmr_stumbles {rest : List Block} (heq : s.list .active = b :: c :: rest) (hne : b ≠ c)
    (hb : s.heap b = some p) (hkb : p.state.home = .active) (hlast : p.lastTimer = s.tcpTimerCtr + 1)
    (hc : s.heap c = some q) (hkc : q.state.home = .active) (hdue : q.lastTimer ≠ s.tcpTimerCtr + 1)
    (hover : Overdue L (s.tcpTicks + 1) q) : s.tcpSlowtmr L = none := by
  have hskip : s.skipped (activeTimer L (s.tcpTicks + 1) (s.tcpTimerCtr + 1)) b = true :=
    (skipped_of_heap hb).mpr (activeTimer_skips hkb hlast)
  have hdrop : s.dropped (activeTimer L (s.tcpTicks + 1) (s.tcpTimerCtr + 1)) c = true :=
    (dropped_of_heap hc).mpr ((activeTimer_eq hkc hdue).trans (if_pos hover))
  unfold tcpSlowtmr
  dsimp only
  rw [walk_skipped heq hne hskip hdrop, Option.bind_none]

end Stack

end Tcp

end SuspiciousPackage
