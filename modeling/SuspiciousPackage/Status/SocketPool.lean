import SuspiciousPackage.Resource.Pool
import SuspiciousPackage.Status.DemoRun

/-!
# Status.SocketPool — who owns the sockets of the status server

The pool of `tcpServer` lends the socket of the client out from `ACCEPTCLIENT` to `CLOSE` (`lease`, `pass_move`), so the
machine only acts on a socket that is not in the pool, and a `CLOSE` that comes to its end leaves each socket there once
(`inv_run`).  But `CLOSE` is also entered without a client, and `ISLISTENING` also when the server does not listen:
`ownsSockets_iff` says which answers of the library lead there.
-/

namespace SuspiciousPackage

open Sync Resource

namespace DemoRun

/-- The pool of the server, and the socket lent out to the machine. -/
def Demo.lease (s : Demo) : Pool Socket :=
  ⟨s.pool, if s.state = .write ∨ s.state = .close then s.ptcpClient else none⟩

theorem nodup_rgTcpClient : rgTcpClient.Nodup := List.nodup_finRange _

theorem mem_rgTcpClient (k : Socket) : k ∈ rgTcpClient := List.mem_finRange k

/-! ## The calls of a pass -/

section Calls

variable {i : In} {s s' : Demo}

/-- The machine acts on sockets outside the pool. -/
def Outside (s : Demo) : Prop := ∀ c ∈ s.calls, c.socket ∉ c.pool

theorem Outside.call (h : Outside s) {op : Op} {k : Socket} (hk : k ∉ s.pool) : Outside (s.call op k) := by
  intro c hc
  rcases List.mem_append.mp hc with hc | hc
  · exact h c hc
  · rw [List.mem_singleton.mp hc]
    exact hk

theorem Outside.addSocket (h : Outside s) {k : Socket} (hk : k ∉ s.pool) : Outside (s.addSocket k) := h.call hk

theorem pool_foldl_addSocket (ks : List Socket) (s : Demo) : (ks.foldl Demo.addSocket s).pool = s.pool ++ ks := by
  induction ks generalizing s with
  | nil => simp
  | cons k ks ih =>
    rw [List.foldl_cons, ih]
    simp [Demo.addSocket]

/-- Sockets none of which is in the pool, added one after the other. -/
theorem Outside.foldl_addSocket {ks : List Socket} (h : Outside s) (hnodup : (s.pool ++ ks).Nodup) :
    Outside (ks.foldl Demo.addSocket s) := by
  induction ks generalizing s with
  | nil => exact h
  | cons k ks ih =>
    rw [List.foldl_cons]
    refine ih (h.addSocket ?_) ?_
    · intro hk
      exact (List.nodup_append.mp hnodup).2.2 k hk k List.mem_cons_self rfl
    · show (s.pool ++ [k] ++ ks).Nodup
      rwa [List.append_assoc]

/-- A pass that acts on a socket outside the pool. -/
theorem Outside.acts (h : Outside s) {k : Socket} {pool : List Socket} (ha : Acts k pool s s') (hk : k ∉ pool) :
    Outside s' := by
  intro c hc
  rcases ha c hc with hc | ⟨rfl, rfl⟩
  · exact h c hc
  · exact hk

theorem Outside.same (h : Outside s) (hs : Same s s') : Outside s' := by
  intro c hc
  rw [hs.calls] at hc
  exact h c hc

end Calls

/-! ## What a pass does to the pool -/

section Lease

variable {i : In} {s s' : Demo}

theorem lease_of_held (h : s.state = .write ∨ s.state = .close) : s.lease = ⟨s.pool, s.ptcpClient⟩ := by
  unfold Demo.lease
  rw [if_pos h]

theorem lease_of_idle (h : ¬ (s.state = .write ∨ s.state = .close)) : s.lease = ⟨s.pool, none⟩ := by
  unfold Demo.lease
  rw [if_neg h]

/-- Before the server has been started nothing is in the pool and there is no client. -/
def Fresh (s : Demo) : Prop := s.state = .connect ∨ s.state = .listen → s.pool = [] ∧ s.ptcpClient = none

/-- `CONNECT` and `LISTEN` are not entered again. -/
theorem state_before (h : pass i s = .ok s') (hs' : s'.state = .connect ∨ s'.state = .listen) :
    s.state = .connect ∧ Same s s' := by
  cases next_of_pass h with
  | connects hs _ h => exact ⟨hs, h⟩
  -- no other pass leads there
  | _ => grind

/-- **A pass** moves the pool as a pool is allowed to. -/
theorem pass_move (hf : Fresh s) (h : pass i s = .ok s') : Pool.Move rgTcpClient s.lease s'.lease := by
  have hstay : s'.lease = s.lease → Pool.Move rgTcpClient s.lease s'.lease := by
    intro heq
    rw [heq]
    exact .stay _
  have hidle : ¬ (s.state = .write ∨ s.state = .close) → ¬ (s'.state = .write ∨ s'.state = .close) → Same s s' →
      Pool.Move rgTcpClient s.lease s'.lease := by
    intro hs hs' h
    apply hstay
    rw [lease_of_idle hs, lease_of_idle hs', h.pool]
  cases next_of_pass h with
  | connects hs hs' h => exact hidle (by simp [hs]) (by rcases hs' with hs' | hs' <;> simp [hs']) h
  | connectFails hs _ _ hs' h =>
    apply hstay
    rw [lease_of_held (Or.inr hs'), lease_of_idle (by simp [hs]), h.pool, h.ptcpClient, (hf (Or.inl hs)).2]
  | listens hs _ hs' h =>
    have hidle' : ¬ (s'.state = .write ∨ s'.state = .close) := by simp [hs']
    rw [lease_of_idle hidle', lease_of_idle (by simp [hs]), h.pool, pool_foldl_addSocket,
      (hf (Or.inr hs)).1, List.nil_append]
    exact .fill
  | listenFails hs _ hs' h => exact hidle (by simp [hs]) (by simp [hs']) h
  | polls hs hs' h =>
    exact hidle (by rcases hs with hs | hs | hs <;> simp [hs]) (by rcases hs' with hs' | hs' | hs' | hs' <;> simp [hs']) h
  | accepts k hs hk _ hs' hp hpool _ =>
    rw [lease_of_held hs', lease_of_idle (by simp [hs]), hp, hpool]
    exact .take s.pool k hk
  | acceptFails hs _ hs' hp hpool _ =>
    apply hstay
    rw [lease_of_held (Or.inr hs'), lease_of_idle (by simp [hs]), hp, hpool]
  | writes k hs hp hs' hp' hpool _ =>
    apply hstay
    rw [lease_of_held (Or.inl hs), lease_of_held (Or.inr hs'), hp, hp', hpool]
  | closes k hs hp hs' hpool _ =>
    rw [lease_of_held (Or.inr hs), lease_of_idle (by simp [hs']), hp, hpool]
    exact .give s.pool k
  | stops hs hs' h =>
    exact hidle (by rcases hs with hs | hs | hs | hs <;> simp [hs]) (by rcases hs' with hs' | hs' | hs' <;> simp [hs']) h

/-- The pool, the client and the calls so far. -/
structure Inv (s : Demo) : Prop where
  fresh : Fresh s
  sound : s.lease.Sound rgTcpClient
  outside : Outside s

theorem inv_start : Inv start where
  fresh := fun _ => ⟨rfl, rfl⟩
  sound := Or.inl rfl
  outside := by
    rintro c ⟨⟩

/-- The socket of the client is not in the pool. -/
theorem Inv.not_mem (hi : Inv s) {k : Socket} (hs : s.state = .write ∨ s.state = .close) (hp : s.ptcpClient = some k) :
    k ∉ s.pool := by
  have hsound := hi.sound
  rw [lease_of_held hs, hp] at hsound
  exact hsound.not_mem nodup_rgTcpClient

/-- **A pass** keeps the invariant. -/
theorem Inv.pass (hi : Inv s) (h : pass i s = .ok s') : Inv s' := by
  have hsound : s'.lease.Sound rgTcpClient := hi.sound.move (pass_move hi.fresh h)
  refine ⟨?_, hsound, ?_⟩
  · intro hs'
    obtain ⟨hs, hsame⟩ := state_before h hs'
    rw [hsame.pool, hsame.ptcpClient]
    exact hi.fresh (Or.inl hs)
  · cases next_of_pass h with
    | connects _ _ h | connectFails _ _ _ _ h | listenFails _ _ _ h | polls _ _ h | stops _ _ h =>
      exact hi.outside.same h
    | listens hs _ _ h =>
      refine Outside.same (hi.outside.foldl_addSocket ?_) h
      rw [(hi.fresh (Or.inr hs)).1]
      exact nodup_rgTcpClient
    | accepts k _ _ _ hs' hp hpool h =>
      rw [lease_of_held hs', hp, hpool] at hsound
      exact hi.outside.acts h (hsound.not_mem nodup_rgTcpClient)
    | acceptFails _ _ _ _ _ h =>
      intro c hc
      rw [h] at hc
      exact hi.outside c hc
    | writes k hs hp _ _ _ h => exact hi.outside.acts h (hi.not_mem (Or.inl hs) hp)
    | closes k hs hp _ _ h => exact hi.outside.acts h (hi.not_mem (Or.inr hs) hp)

end Lease

/-! ## Runs -/

section Run

variable {ins : ℕ → In} {i : In} {t : ℕ} {s s' : Demo}

theorem inv_run : ∀ t s, demoRun ins t = .ok s → Inv s := haltRun_inv inv_start fun _ _ _ _ h hi => hi.pass h

/-- `CONNECT` is left for good, and `LISTEN` with the next pass. -/
theorem connect_before : ∀ t s, demoRun ins t = .ok s → s.state = .connect ∨ s.state = .listen →
    ∀ u < t, ∀ s', demoRun ins u = .ok s' → s'.state = .connect := by
  refine haltRun_inv (fun _ u hu => absurd hu (Nat.not_lt_zero u)) ?_
  intro t s s' hs h ih hs' u hu r hr
  obtain ⟨hc, -⟩ := state_before h hs'
  rcases Nat.lt_succ_iff_lt_or_eq.mp hu with hu | rfl
  · exact ih (Or.inl hc) u hu r hr
  · cases hs.symm.trans hr
    exact hc

/-- The server has been started in a pass before pass `t`. -/
def Listened (ins : ℕ → In) (t : ℕ) : Prop :=
  ∃ u < t, (∃ s, demoRun ins u = .ok s ∧ s.state = .listen) ∧ (ins u).tcpStartListening = true

theorem Listened.succ (h : Listened ins t) : Listened ins (t + 1) := by
  obtain ⟨u, hu, h⟩ := h
  exact ⟨u, Nat.lt_succ_of_lt hu, h⟩

/-- The machine acts on no socket that it does not own. -/
structure OwnsSockets (ins : ℕ → In) : Prop where
  /-- `ptcpClient` is not NULL where it is dereferenced. -/
  deref : ∀ t, demoRun ins t ≠ .error .nullPointer
  /-- No socket is added to a pool that it is in. -/
  addSocket : ∀ t s, demoRun ins t = .ok s → ∀ c ∈ s.calls, c.op = .addSocket → c.socket ∉ c.pool
  /-- After `CLOSE` each socket is in the pool once. -/
  pooled : ∀ t s, demoRun ins t = .ok s → s.state = .close →
    ∃ s', demoRun ins (t + 1) = .ok s' ∧ ∀ k, s'.pool.count k = 1
  listening : ∀ t s, demoRun ins t = .ok s → s.state = .isListening → Listened ins t

/-- What is called in state `s` does not fail. -/
structure Answers (i : In) (s : Demo) : Prop where
  wfConnect : s.state = .connect → i.wfConnect = true ∨ i.isIPStatusAnError = false
  tcpStartListening : s.state = .listen → i.tcpStartListening = true
  acceptClient : s.state = .acceptClient → ∃ k ∈ s.pool, i.acceptClient = some k

/-! ### The answers that keep the sockets -/

/-- `WRITE` and `CLOSE` are then entered with a client. -/
theorem client_pass (ha : Answers i s) (h : pass i s = .ok s') (hs' : s'.state = .write ∨ s'.state = .close) :
    s'.ptcpClient ≠ none := by
  cases next_of_pass h with
  | connectFails hs hw he _ _ => exact absurd (ha.wfConnect hs) (by simp [hw, he])
  | acceptFails hs hi _ _ _ _ =>
    obtain ⟨k, hk, hik⟩ := ha.acceptClient hs
    exact absurd hik (hi k hk)
  | accepts k _ _ _ _ hp _ _ => simp [hp]
  | writes k _ _ _ hp _ _ => simp [hp]
  -- the other passes lead elsewhere
  | _ => grind

theorem listened_pass (ha : Answers (ins t) s) (hs : demoRun ins t = .ok s) (h : pass (ins t) s = .ok s')
    (hi : s.state = .connect ∨ s.state = .listen ∨ Listened ins t) :
    s'.state = .connect ∨ s'.state = .listen ∨ Listened ins (t + 1) := by
  cases next_of_pass h with
  | connects _ hs' _ => exact hs'.imp_right Or.inl
  | connectFails hc hw he _ _ => exact absurd (ha.wfConnect hc) (by simp [hw, he])
  | listens hl hi _ _ => exact Or.inr (Or.inr ⟨t, Nat.lt_succ_self t, ⟨s, hs, hl⟩, hi⟩)
  | listenFails hl hi _ _ => exact absurd (ha.tcpStartListening hl) (by simp [hi])
  | _ =>
    -- the state is neither `CONNECT` nor `LISTEN`
    have hlater : Listened ins t := by grind
    exact Or.inr (Or.inr hlater.succ)

section Answered

variable (ha : ∀ t s, demoRun ins t = .ok s → Answers (ins t) s)

include ha

theorem client_run : ∀ t s, demoRun ins t = .ok s → s.state = .write ∨ s.state = .close → s.ptcpClient ≠ none := by
  refine haltRun_inv ?_ fun t s s' hs h _ => client_pass (ha t s hs) h
  rintro (h | h) <;> cases h

theorem listened_run : ∀ t s, demoRun ins t = .ok s → s.state = .connect ∨ s.state = .listen ∨ Listened ins t :=
  haltRun_inv (Or.inl rfl) fun t s _ hs h => listened_pass (ha t s hs) hs h

/-- NULL is not dereferenced. -/
theorem deref_run (t : ℕ) : demoRun ins t ≠ .error .nullPointer := by
  intro h
  obtain ⟨u, s, -, hs, hpass⟩ := haltRun_halts h
  obtain ⟨hstate, hp⟩ := pass_eq_nullPointer.mp hpass
  exact client_run ha u s hs hstate hp

/-- `CLOSE` completes the pool. -/
theorem pooled_run (hs : demoRun ins t = .ok s) (hc : s.state = .close) :
    ∃ s', demoRun ins (t + 1) = .ok s' ∧ ∀ k, s'.pool.count k = 1 := by
  obtain ⟨k, hp⟩ := Option.ne_none_iff_exists'.mp (client_run ha t s hs (Or.inr hc))
  have hsound := (inv_run t s hs).sound
  rw [lease_of_held (Or.inr hc), hp] at hsound
  have hpass : pass (ins t) s = .ok { (s.call .close k).addSocket k with state := .isListening } := by
    simp [pass, hc, Demo.close, Demo.deref, hp, Except.map]
  refine ⟨_, (haltRun_succ_of_ok hs).trans hpass, fun k' => ?_⟩
  exact hsound.count_free nodup_rgTcpClient (mem_rgTcpClient k')

end Answered

/-! ### The answers that lose them -/

/-- Once `CLOSE` is entered without a client the machine dereferences NULL. -/
theorem nullPointer_of_close (hs : demoRun ins t = .ok s) (hc : s.state = .close) (hp : s.ptcpClient = none) :
    demoRun ins (t + 1) = .error .nullPointer :=
  (haltRun_succ_of_ok hs).trans (pass_eq_nullPointer.mpr ⟨Or.inr hc, hp⟩)

theorem wfConnect_of_owns (h : OwnsSockets ins) (hs : demoRun ins t = .ok s) (hc : s.state = .connect) :
    (ins t).wfConnect = true ∨ (ins t).isIPStatusAnError = false := by
  by_contra hno
  rw [not_or, Bool.not_eq_true, Bool.not_eq_false] at hno
  have hpass : pass (ins t) s = .ok { s with state := .close } := by simp [pass, hc, Demo.connect, hno]
  exact h.deref _ (nullPointer_of_close ((haltRun_succ_of_ok hs).trans hpass) rfl ((inv_run t s hs).fresh (Or.inl hc)).2)

theorem acceptClient_of_owns (h : OwnsSockets ins) (hs : demoRun ins t = .ok s) (ha : s.state = .acceptClient) :
    ∃ k ∈ s.pool, (ins t).acceptClient = some k := by
  by_contra hno
  have hpass : pass (ins t) s = .ok (s.acceptClient (ins t)) := by simp [pass, ha]
  have hs' := (haltRun_succ_of_ok hs).trans hpass
  cases next_acceptClient (i := ins t) ha with
  | accepts k _ hk hi _ _ _ _ => exact hno ⟨k, hk, hi⟩
  | acceptFails _ _ hc hp _ _ => exact h.deref _ (nullPointer_of_close hs' hc hp)
  | _ => grind

theorem tcpStartListening_of_owns (h : OwnsSockets ins) (hs : demoRun ins t = .ok s) (hl : s.state = .listen) :
    (ins t).tcpStartListening = true := by
  have hpass : pass (ins t) s = .ok (s.listen (ins t)) := by simp [pass, hl]
  obtain ⟨u, hu, ⟨r, hr, hrl⟩, hi⟩ := h.listening _ _ ((haltRun_succ_of_ok hs).trans hpass) rfl
  rcases Nat.lt_succ_iff_lt_or_eq.mp hu with hu | rfl
  · have hc := connect_before t s hs (Or.inr hl) u hu r hr
    rw [hrl] at hc
    cases hc
  · exact hi

/-- **Ownership**: the machine acts only on sockets that it owns exactly as long as connecting does not fail, listening
succeeds and `acceptClient` returns a socket. -/
theorem ownsSockets_iff (ins : ℕ → In) :
    OwnsSockets ins ↔ ∀ t s, demoRun ins t = .ok s → Answers (ins t) s := by
  constructor
  · intro h t s hs
    exact ⟨wfConnect_of_owns h hs, tcpStartListening_of_owns h hs, acceptClient_of_owns h hs⟩
  · intro ha
    refine ⟨deref_run ha, ?_, fun t s hs hc => pooled_run ha hs hc, ?_⟩
    · intro t s hs c hc _
      exact (inv_run t s hs).outside c hc
    · intro t s hs hl
      have hi := listened_run ha t s hs
      rw [hl] at hi
      simpa using hi

/-- The WiFi cannot be connected to. -/
def noNetwork : In where
  alert := false
  wfConnect := false
  isIPStatusAnError := true
  tcpStartListening := true
  isListening := 0
  availableClients := 0
  acceptClient := none
  isConnected := false
  gpsPing := false
  gpsIsFixed := false
  gpsNumSats := 0

/-- Without a network the server closes the connection that it does not have. -/
theorem nullPointer_without_network : demoRun (fun _ => noNetwork) 2 = .error .nullPointer ∧
    ¬ OwnsSockets fun _ => noNetwork := by
  have h : demoRun (fun _ => noNetwork) 2 = .error .nullPointer := rfl
  exact ⟨h, fun howns => howns.deref 2 h⟩

end Run

end DemoRun

end SuspiciousPackage
