import SuspiciousPackage.Tcp.Api

/-!
# Tcp.Alloc — whom `tcp_alloc` kills

With no block free, `tcp_alloc` gives up the oldest connection in TIME-WAIT, and if there is none an active one of no
higher priority.  `killTimewait_spec` and `killPrio_spec` say which one the two loops find; `tcpAlloc_cases` puts them
together.
-/

namespace SuspiciousPackage

namespace Tcp

namespace Stack

variable {L : Lwip} {s : Stack} {b v c : Block} {p q : TcpPcb} {prio : BitVec 8}

/-- Without activity for as long. -/
def idle (s : Stack) (p : TcpPcb) : ℕ := (age s.tcpTicks p).toNat

/-! ## The loops -/

theorem killTimewaitStep_of_heap {r : BitVec 32 × Option Block} (hc : s.heap c = some q) :
    killTimewaitStep s r c = if r.1.toNat ≤ s.idle q then (age s.tcpTicks q, some c) else r := by
  unfold killTimewaitStep
  rw [hc]
  rfl

/-- **The loop of `tcp_kill_timewait`** finds a block that nobody has been idle longer than. -/
theorem killTimewait_spec {l : List Block} (hl : ∀ c ∈ l, ∃ q, s.heap c = some q) (hne : l ≠ []) :
    ∃ v ∈ l, ∃ p, s.heap v = some p ∧ l.foldl (killTimewaitStep s) (0, none) = (age s.tcpTicks p, some v) ∧
      ∀ c ∈ l, ∀ q, s.heap c = some q → s.idle q ≤ s.idle p := by
  induction l using List.reverseRecOn with
  | nil => exact absurd rfl hne
  | append_singleton l c ih =>
    obtain ⟨q, hq⟩ := hl c (by simp)
    rw [List.foldl_append, List.foldl_cons, List.foldl_nil, killTimewaitStep_of_heap hq]
    have hself : ∀ q', s.heap c = some q' → q' = q := fun q' hq' => Option.some.inj (hq'.symm.trans hq)
    by_cases hnil : l = []
    · subst hnil
      refine ⟨c, by simp, q, hq, by simp, fun d hd q' hq' => ?_⟩
      obtain rfl : d = c := by simpa using hd
      rw [hself q' hq']
    · obtain ⟨v, hv, p, hp, hfold, hmax⟩ := ih (fun d hd => hl d (by simp [hd])) hnil
      rw [hfold]
      have hcase : ∀ d, d ∈ l ++ [c] → d ∈ l ∨ d = c := fun d hd => by simpa using hd
      by_cases hle : s.idle p ≤ s.idle q
      · refine ⟨c, by simp, q, hq, if_pos hle, fun d hd q' hq' => ?_⟩
        rcases hcase d hd with hd | rfl
        · exact (hmax d hd q' hq').trans hle
        · rw [hself q' hq']
      · refine ⟨v, by simp [hv], p, hp, if_neg hle, fun d hd q' hq' => ?_⟩
        rcases hcase d hd with hd | rfl
        · exact hmax d hd q' hq'
        · rw [hself q' hq']
          omega

/-- A connection that `tcp_kill_prio` may give up. -/
def Eligible (prio : BitVec 8) (p : TcpPcb) : Prop := p.prio.toNat ≤ prio.toNat ∧ p.prio.toNat ≤ tcpPrioMax.toNat

/-- `q` is no better a victim than `p`: not of lower priority and idle as long, nor idle longer and of no higher
priority. -/
def NotBetter (s : Stack) (p q : TcpPcb) : Prop :=
  ¬ (q.prio.toNat < p.prio.toNat ∧ s.idle p ≤ s.idle q) ∧ ¬ (q.prio.toNat ≤ p.prio.toNat ∧ s.idle p < s.idle q)

theorem killPrioStep_of_heap {r : Victim} (hc : s.heap c = some q) : killPrioStep prio s r c =
    if q.prio.toNat ≤ prio.toNat ∧ q.prio.toNat ≤ r.mprio.toNat ∧ r.inactivity.toNat ≤ s.idle q then
      ⟨q.prio, age s.tcpTicks q, some c⟩ else r := by
  unfold killPrioStep
  rw [hc]
  rfl

/-- **The loop of `tcp_kill_prio`** finds a connection that may be given up, and none that is better, if there is one. -/
theorem killPrio_spec {l : List Block} (hl : ∀ c ∈ l, ∃ q, s.heap c = some q) (prio : BitVec 8) :
    (l.foldl (killPrioStep prio s) ⟨tcpPrioMax, 0, none⟩ = ⟨tcpPrioMax, 0, none⟩ ∧
        ∀ c ∈ l, ∀ q, s.heap c = some q → ¬ Eligible prio q) ∨
      ∃ v ∈ l, ∃ p, s.heap v = some p ∧ Eligible prio p ∧
        l.foldl (killPrioStep prio s) ⟨tcpPrioMax, 0, none⟩ = ⟨p.prio, age s.tcpTicks p, some v⟩ ∧
        ∀ c ∈ l, ∀ q, s.heap c = some q → Eligible prio q → s.NotBetter p q := by
  induction l using List.reverseRecOn with
  | nil => exact Or.inl ⟨rfl, fun c hc => by cases hc⟩
  | append_singleton l c ih =>
    obtain ⟨q, hq⟩ := hl c (by simp)
    have hself : ∀ q', s.heap c = some q' → q' = q := fun q' hq' => Option.some.inj (hq'.symm.trans hq)
    have hcase : ∀ d, d ∈ l ++ [c] → d ∈ l ∨ d = c := fun d hd => by simpa using hd
    rw [List.foldl_append, List.foldl_cons, List.foldl_nil, killPrioStep_of_heap hq]
    rcases ih fun d hd => hl d (by simp [hd]) with ⟨hfold, hnone⟩ | ⟨v, hv, p, hp, helig, hfold, hbest⟩
    · rw [hfold]
      by_cases heq : Eligible prio q
      · refine Or.inr ⟨c, by simp, q, hq, heq, if_pos ⟨heq.1, heq.2, by simp⟩, fun d hd q' hq' he => ?_⟩
        rcases hcase d hd with hd | rfl
        · exact absurd he (hnone d hd q' hq')
        · rw [hself q' hq']
          exact ⟨fun hx => by omega, fun hx => by omega⟩
      · refine Or.inl ⟨if_neg fun hx => heq ⟨hx.1, hx.2.1⟩, fun d hd q' hq' => ?_⟩
        rcases hcase d hd with hd | rfl
        · exact hnone d hd q' hq'
        · rwa [hself q' hq']
    · rw [hfold]
      refine Or.inr ?_
      by_cases hstep : q.prio.toNat ≤ prio.toNat ∧ q.prio.toNat ≤ p.prio.toNat ∧ s.idle p ≤ s.idle q
      · -- the new one beats all that the old one beats
        obtain ⟨h1, h2, h3⟩ := hstep
        refine ⟨c, by simp, q, hq, ⟨h1, h2.trans helig.2⟩, if_pos ⟨h1, h2, h3⟩, fun d hd q' hq' he => ?_⟩
        rcases hcase d hd with hd | rfl
        · obtain ⟨hb1, hb2⟩ := hbest d hd q' hq' he
          exact ⟨fun hx => hb1 (by omega), fun hx => hb2 (by omega)⟩
        · rw [hself q' hq']
          exact ⟨fun hx => by omega, fun hx => by omega⟩
      · refine ⟨v, by simp [hv], p, hp, helig, if_neg hstep, fun d hd q' hq' he => ?_⟩
        rcases hcase d hd with hd | rfl
        · exact hbest d hd q' hq' he
        · rw [hself q' hq'] at he ⊢
          have h1 := he.1
          exact ⟨fun hx => hstep ⟨h1, by omega, by omega⟩, fun hx => hstep ⟨h1, by omega, by omega⟩⟩

/-! ## The allocation -/

/-- Block `b` given up: off list `k`, and free. -/
def taken (L : Lwip) (k : ListId) (b : Block) (s : Stack) : Stack :=
  { s with heap := Function.update s.heap b none, list := Function.update s.list k (L.tcpRmv (s.list k) b) }

theorem tcpAbort_timeWait (h : Sane L s) (hb : b ∈ s.list .timeWait) : s.tcpAbort L b = some (s.taken L .timeWait b) := by
  obtain ⟨p, hp, hhome⟩ := h.listed hb
  have hstate : p.state = .timeWait := by
    generalize p.state = st at hhome
    cases st <;> first | rfl | cases hhome
  unfold tcpAbort tcpAbandon
  rw [hp, Option.bind_some, if_neg (by rw [hstate]; decide), if_pos hstate]
  exact h.remove_free_home hp (h.off_other hp hhome)

theorem tcpAbort_active (h : Sane L s) (hb : b ∈ s.list .active) : s.tcpAbort L b = some (s.taken L .active b) := by
  obtain ⟨p, hp, hhome⟩ := h.listed hb
  unfold tcpAbort tcpAbandon
  rw [hp, Option.bind_some, if_neg (fun hst => by rw [hst] at hhome; cases hhome),
    if_neg (fun hst => by rw [hst] at hhome; cases hhome)]
  exact h.remove_free_home hp (h.off_other hp hhome)

theorem Sane.taken (h : Sane L s) {k : ListId} (hb : b ∈ s.list k) : Sane L (s.taken L k b) := by
  obtain ⟨p, hp, hhome⟩ := h.listed hb
  exact h.take (h.off_other hp hhome) (L.tcpRmv_perm _ b)

/-- A connection has a block of its own pool. -/
theorem Sane.pool_eq (h : Sane L s) {k : ListId} (hk : k ≠ .listen) (hb : b ∈ s.list k) : b.pool = .tcpPcb := by
  obtain ⟨p, hp, hhome⟩ := h.listed hb
  have hne := h.pool_ne hp fun hst => hk (by rw [← hhome, hst]; rfl)
  generalize b.pool = pool at hne
  cases pool with
  | tcpPcb => rfl
  | tcpPcbListen => exact absurd rfl hne

/-- When the pool was used up, the block just given up comes back. -/
theorem malloc_taken (h : Sane L s) {k : ListId} (hk : k ≠ .listen) (hb : b ∈ s.list k) (hnone : s.malloc L .tcpPcb = none) :
    (s.taken L k b).malloc L .tcpPcb = some b := by
  obtain ⟨p, hp, -⟩ := h.listed hb
  have hpool := h.pool_eq hk hb
  cases hm : (s.taken L k b).malloc L .tcpPcb with
  | none =>
    have hused := L.malloc_none _ _ hm b.index (hpool ▸ h.index b p hp)
    have hself : (⟨.tcpPcb, b.index⟩ : Block) = b := by rw [← hpool]
    rw [hself] at hused
    have hfree : (s.taken L k b).heap b = none := Function.update_self ..
    rw [hfree] at hused
    cases hused
  | some c =>
    obtain ⟨hcpool, hindex, hfree⟩ := malloc_some hm
    by_contra hne
    have hcb : c ≠ b := fun hcb => hne (congrArg some hcb)
    have hused := L.malloc_none _ _ hnone c.index (hcpool ▸ hindex)
    have hself : (⟨.tcpPcb, c.index⟩ : Block) = c := by rw [← hcpool]
    have hsame : (s.taken L k b).heap c = s.heap c := Function.update_of_ne hcb ..
    rw [hself, ← hsame, hfree] at hused
    cases hused

/-- **`tcp_alloc`.**  A free block is taken if there is one; else the connection longest in TIME-WAIT goes, or if there is
none an active one of no higher priority, none of them better, and its block is used; and only if there is neither is
there no block. -/
theorem tcpAlloc_cases (h : Sane L s) (prio : BitVec 8) :
    (∃ b, s.malloc L .tcpPcb = some b ∧ s.tcpAlloc L prio = some (s.setPcb b (s.newPcb L prio), some b)) ∨
    (s.malloc L .tcpPcb = none ∧
      ((∃ v ∈ s.list .timeWait, ∃ p, s.heap v = some p ∧
          (∀ c ∈ s.list .timeWait, ∀ q, s.heap c = some q → s.idle q ≤ s.idle p) ∧
          s.tcpAlloc L prio = some ((s.taken L .timeWait v).setPcb v (s.newPcb L prio), some v)) ∨
      (s.list .timeWait = [] ∧
        ((∃ v ∈ s.list .active, ∃ p, s.heap v = some p ∧ Eligible prio p ∧
            (∀ c ∈ s.list .active, ∀ q, s.heap c = some q → Eligible prio q → s.NotBetter p q) ∧
            s.tcpAlloc L prio = some ((s.taken L .active v).setPcb v (s.newPcb L prio), some v)) ∨
        ((∀ c ∈ s.list .active, ∀ q, s.heap c = some q → ¬ Eligible prio q) ∧ s.tcpAlloc L prio = some (s, none)))))) := by
  have hheap : ∀ k, ∀ c ∈ s.list k, ∃ q, s.heap c = some q := fun k c hc => (h.listed hc).imp fun _ hq => hq.1
  unfold tcpAlloc
  cases hm : s.malloc L .tcpPcb with
  | some b => exact Or.inl ⟨b, rfl, rfl⟩
  | none =>
    refine Or.inr ⟨rfl, ?_⟩
    dsimp only
    by_cases htw : s.list .timeWait = []
    · have hkeep : s.tcpKillTimewait L = some s := by
        unfold tcpKillTimewait
        rw [htw]
        rfl
      refine Or.inr ⟨htw, ?_⟩
      rw [hkeep, Option.bind_some, hm]
      rcases killPrio_spec (hheap .active) prio with ⟨hfold, hnone⟩ | ⟨v, hv, p, hp, helig, hfold, hbest⟩
      · refine Or.inr ⟨hnone, ?_⟩
        have hkeep' : s.tcpKillPrio L prio = some s := by
          unfold tcpKillPrio
          rw [hfold]
        rw [hkeep', Option.map_some, hm]
      · refine Or.inl ⟨v, hv, p, hp, helig, hbest, ?_⟩
        have hkill : s.tcpKillPrio L prio = some (s.taken L .active v) := by
          unfold tcpKillPrio
          rw [hfold]
          exact tcpAbort_active h hv
        rw [hkill, Option.map_some, malloc_taken h (by decide) hv hm]
        rfl
    · obtain ⟨v, hv, p, hp, hfold, hmax⟩ := killTimewait_spec (hheap .timeWait) htw
      refine Or.inl ⟨v, hv, p, hp, hmax, ?_⟩
      have hkill : s.tcpKillTimewait L = some (s.taken L .timeWait v) := by
        unfold tcpKillTimewait
        rw [hfold]
        exact tcpAbort_timeWait h hv
      rw [hkill, Option.bind_some, malloc_taken h (by decide) hv hm]
      rfl

/-- `b` is new, and of what was in use only `b` itself is gone, if it was. -/
structure Renewed (L : Lwip) (prio : BitVec 8) (b : Block) (s s' : Stack) : Prop where
  new : s'.heap b = some (s.newPcb L prio)
  heap : ∀ c, c ≠ b → s'.heap c = s.heap c
  list : ∀ k c, c ∈ s'.list k ↔ c ∈ s.list k ∧ c ≠ b

theorem Sane.renewed_malloc (h : Sane L s) (hm : s.malloc L .tcpPcb = some b) :
    Renewed L prio b s (s.setPcb b (s.newPcb L prio)) where
  new := Function.update_self ..
  heap c hc := Function.update_of_ne hc ..
  list k c := by
    have hno := h.sound.not_mem_of_free (malloc_some hm).2.2 k
    exact ⟨fun hc => ⟨hc, fun hcb => hno (hcb ▸ hc)⟩, fun hc => hc.1⟩

theorem Sane.renewed_taken (h : Sane L s) {k : ListId} (hb : b ∈ s.list k) :
    Renewed L prio b s ((s.taken L k b).setPcb b (s.newPcb L prio)) where
  new := Function.update_self ..
  heap c hc := by
    show Function.update (Function.update s.heap b none) b _ c = _
    rw [Function.update_of_ne hc, Function.update_of_ne hc]
  list j c := by
    obtain ⟨p, hp, hhome⟩ := h.listed hb
    show c ∈ Function.update s.list k _ j ↔ _
    by_cases hj : j = k
    · subst hj
      rw [Function.update_self, (L.tcpRmv_perm _ b).mem_iff, (h.sound.nodup j).mem_erase_iff, and_comm]
    · rw [Function.update_of_ne hj]
      exact ⟨fun hc => ⟨hc, fun hcb => h.off_other hp hhome j hj (hcb ▸ hc)⟩, fun hc => hc.1⟩

theorem Sane.fresh_taken (h : Sane L s) {k : ListId} (hk : k ≠ .listen) (hb : b ∈ s.list k) :
    Sane L ((s.taken L k b).setPcb b (s.newPcb L prio)) := by
  obtain ⟨p, hp, -⟩ := h.listed hb
  exact (h.taken hb).fresh (Function.update_self ..) (h.pool_eq hk hb) (h.index b p hp) rfl ⟨rfl, rfl, rfl⟩

theorem Sane.alloc_renewed (h : Sane L s) (prio : BitVec 8) :
    s.tcpAlloc L prio = some (s, none) ∨
      ∃ s' b, s.tcpAlloc L prio = some (s', some b) ∧ Sane L s' ∧ Renewed L prio b s s' ∧
        (s.heap b = none ∨ b ∈ s.list .timeWait ∨ b ∈ s.list .active) := by
  rcases tcpAlloc_cases h prio with ⟨b, hm, heq⟩ | ⟨-, ⟨v, hv, -, -, -, heq⟩ | ⟨-, ⟨v, hv, -, -, -, -, heq⟩ | ⟨-, heq⟩⟩⟩
  · obtain ⟨hpool, hindex, hfree⟩ := malloc_some hm
    exact Or.inr ⟨_, b, heq, h.fresh hfree hpool hindex rfl ⟨rfl, rfl, rfl⟩, h.renewed_malloc hm, Or.inl hfree⟩
  · exact Or.inr ⟨_, v, heq, h.fresh_taken (by decide) hv, h.renewed_taken hv, Or.inr (Or.inl hv)⟩
  · exact Or.inr ⟨_, v, heq, h.fresh_taken (by decide) hv, h.renewed_taken hv, Or.inr (Or.inr hv)⟩
  · exact Or.inl heq

theorem Sane.alloc (h : Sane L s) (prio : BitVec 8) : ∃ r, s.tcpAlloc L prio = some r ∧ Sane L r.1 := by
  rcases h.alloc_renewed prio with heq | ⟨s', b, heq, hsane, -⟩
  · exact ⟨_, heq, h⟩
  · exact ⟨_, heq, hsane⟩

/-- The connection in block `c` is one to be given up. -/
def ToGiveUp (s : Stack) (prio : BitVec 8) (c : Block) (p : TcpPcb) : Prop :=
  (c ∈ s.list .timeWait ∧ ∀ d ∈ s.list .timeWait, ∀ q, s.heap d = some q → s.idle q ≤ s.idle p) ∨
  (s.list .timeWait = [] ∧ c ∈ s.list .active ∧ Eligible prio p ∧
    ∀ d ∈ s.list .active, ∀ q, s.heap d = some q → Eligible prio q → s.NotBetter p q)

/-- **What an allocation costs.**  There is no block only when the pool is used up, nothing is in TIME-WAIT and no active
connection may be given up; otherwise there is a new block, and at most the connection that was in it is lost, and only
when the pool is used up and it is the one to be given up. -/
theorem alloc_gives_up (h : Sane L s) (prio : BitVec 8) :
    ∃ s' r, s.tcpAlloc L prio = some (s', r) ∧ Sane L s' ∧
      (r = none ↔ s.malloc L .tcpPcb = none ∧ s.list .timeWait = [] ∧
        ∀ c ∈ s.list .active, ∀ q, s.heap c = some q → ¬ Eligible prio q) ∧
      (r = none → s' = s) ∧
      ∀ b, r = some b → Renewed L prio b s s' ∧
        ∀ p, s.heap b = some p → s.malloc L .tcpPcb = none ∧ s.ToGiveUp prio b p := by
  obtain ⟨r, hr, hsane⟩ := h.alloc prio
  refine ⟨r.1, r.2, hr, hsane, ?_⟩
  rcases tcpAlloc_cases h prio with ⟨b, hm, heq⟩ | ⟨hm, ⟨v, hv, p, hp, hmax, heq⟩ | ⟨htw, hact⟩⟩
  · obtain rfl := Option.some.inj (hr.symm.trans heq)
    refine ⟨⟨fun hx => ?_, fun hx => ?_⟩, fun hx => ?_, fun c hc => ?_⟩
    · cases hx
    · rw [hm] at hx
      cases hx.1
    · cases hx
    · obtain rfl := Option.some.inj hc
      refine ⟨h.renewed_malloc hm, fun p hp => ?_⟩
      rw [(malloc_some hm).2.2] at hp
      cases hp
  · obtain rfl := Option.some.inj (hr.symm.trans heq)
    refine ⟨⟨fun hx => ?_, fun hx => ?_⟩, fun hx => ?_, fun c hc => ?_⟩
    · cases hx
    · rw [hx.2.1] at hv
      exact absurd hv List.not_mem_nil
    · cases hx
    · obtain rfl := Option.some.inj hc
      refine ⟨h.renewed_taken hv, fun q hq => ⟨hm, Or.inl ⟨hv, ?_⟩⟩⟩
      rwa [Option.some.inj (hq.symm.trans hp)]
  · rcases hact with ⟨v, hv, p, hp, helig, hbest, heq⟩ | ⟨hnone, heq⟩
    · obtain rfl := Option.some.inj (hr.symm.trans heq)
      refine ⟨⟨fun hx => ?_, fun hx => absurd helig (hx.2.2 v hv p hp)⟩, fun hx => ?_, fun c hc => ?_⟩
      · cases hx
      · cases hx
      · obtain rfl := Option.some.inj hc
        refine ⟨h.renewed_taken hv, fun q hq => ⟨hm, Or.inr ⟨htw, hv, ?_⟩⟩⟩
        rw [Option.some.inj (hq.symm.trans hp)]
        exact ⟨helig, hbest⟩
    · obtain rfl := Option.some.inj (hr.symm.trans heq)
      refine ⟨⟨fun _ => ⟨hm, htw, hnone⟩, fun _ => rfl⟩, fun _ => rfl, fun c hc => ?_⟩
      cases hc

/-- The other block is taken by a socket that nothing is done with, then the connection has to go. -/
theorem alloc_gives_up_connection : ∃ s', (oneConnection.setPcb ⟨.tcpPcb, 1⟩ (init.newPcb twoBlocks 64)).tcpAlloc
      twoBlocks 64 = some (s', some ⟨.tcpPcb, 0⟩) ∧ Sane twoBlocks s' := by
  have hfull : Sane twoBlocks (oneConnection.setPcb ⟨.tcpPcb, 1⟩ (init.newPcb twoBlocks 64)) :=
    sane_oneConnection.fresh rfl rfl (by decide) rfl ⟨rfl, rfl, rfl⟩
  obtain ⟨s', r, hr, hsane, -⟩ := alloc_gives_up hfull 64
  obtain rfl : r = some ⟨.tcpPcb, 0⟩ := by
    have hsnd := congrArg (Option.map Prod.snd) hr
    exact (Option.some.inj (hsnd.symm.trans (by decide +kernel))).trans rfl
  exact ⟨s', hr, hsane⟩

end Stack

end Tcp

end SuspiciousPackage
