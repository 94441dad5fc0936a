import SuspiciousPackage.Tcp.Alloc
import SuspiciousPackage.Tcp.Slowtmr

/-!
# Tcp.Runs — an application that keeps the rules keeps the lists in order

`run_allowed`: whatever calls an application makes, with the slow timer in between, as long as each of them is `Allowed`
all of them come to their end and the lists stay in order.  `abort_iff` is about a rule that is written nowhere: a bound
block may not be aborted.
-/

namespace SuspiciousPackage

namespace Tcp

open Resource Lists

/-- What may be called, with what the rest of the stack answers. -/
inductive Op
  | new (prio : BitVec 8)
  | bind (b : Block) (ip : BitVec 32) (port : BitVec 16)
  | listen (b : Block)
  | connect (b : Block) (ipaddr : Option (BitVec 32)) (port : BitVec 16) (route : Option Stack.Netif) (enqueue : Err)
  | close (b : Block) (sendFin : Err)
  | shutdown (b : Block) (shutRx shutTx : Bool) (sendFin : Err)
  | abort (b : Block)
  | arg (b : Block) (arg : ℕ)
  | accept (b : Block) (accept : Accept)
  | slowtmr

namespace Stack

variable {L : Lwip} {s s' : Stack} {b : Block} {p : TcpPcb}

def step (L : Lwip) (s : Stack) : Op → Option Stack
  | .new prio => (s.tcpAlloc L prio).map Prod.fst
  | .bind b ip port => (s.tcpBind L b ip port).map Prod.fst
  | .listen b => (s.tcpListen L b).map Prod.fst
  | .connect b ipaddr port route enqueue => (s.tcpConnect L b ipaddr port route enqueue).map Prod.fst
  | .close b sendFin => (s.tcpClose L b sendFin).map Prod.fst
  | .shutdown b shutRx shutTx sendFin => (s.tcpShutdown L b shutRx shutTx sendFin).map Prod.fst
  | .abort b => s.tcpAbort L b
  | .arg b arg => s.tcpArg b arg
  | .accept b accept => s.tcpAccept b accept
  | .slowtmr => s.tcpSlowtmr L

/-- The call is made with a block in use; a closed one is bound only once, is not aborted while it is bound, does not
listen on a port that a `tcp_connect` that failed left it with, and does not connect when its `last_timer` is one ahead of
the counter; and one that listens is not aborted. -/
def Allowed (s : Stack) : Op → Prop
  | .new _ | .slowtmr => True
  | .close b _ | .shutdown b _ _ _ | .arg b _ | .accept b _ => (s.heap b).isSome
  | .connect b _ _ _ _ => ∃ p ∈ s.heap b, p.state = .closed → p.lastTimer ≠ s.tcpTimerCtr + 1
  | .bind b _ _ => ∃ p ∈ s.heap b, p.state = .closed → b ∉ s.list .bound
  | .listen b => ∃ p ∈ s.heap b, p.state = .closed → b ∈ s.list .bound ∨ p.localPort = 0
  | .abort b => ∃ p ∈ s.heap b, p.state ≠ .listen ∧ (p.state = .closed → b ∉ s.list .bound)

instance (s : Stack) : DecidablePred s.Allowed := by
  intro op
  cases op <;> unfold Allowed <;> infer_instance

theorem map_fst {α : Type*} {o : Option (Stack × α)} (h : ∃ r, o = some r ∧ Sane L r.1) :
    ∃ s', o.map Prod.fst = some s' ∧ Sane L s' := by
  obtain ⟨r, rfl, hsane⟩ := h
  exact ⟨r.1, rfl, hsane⟩

/-- **One call.** -/
theorem Sane.step (h : Sane L s) {op : Op} (ha : s.Allowed op) : ∃ s', s.step L op = some s' ∧ Sane L s' := by
  cases op with
  | new prio => exact map_fst (h.alloc prio)
  | bind b ip port =>
    obtain ⟨p, hp, hno⟩ := ha
    exact map_fst (h.bind hp hno ip port)
  | listen b =>
    obtain ⟨p, hp, hport⟩ := ha
    exact map_fst (h.listen hp hport)
  | connect b ipaddr port route enqueue =>
    obtain ⟨p, hp, hdue⟩ := ha
    exact map_fst (h.connect hp hdue ipaddr port route enqueue)
  | close b sendFin =>
    obtain ⟨p, hp⟩ := Option.isSome_iff_exists.mp ha
    exact map_fst (h.close hp sendFin)
  | shutdown b shutRx shutTx sendFin =>
    obtain ⟨p, hp⟩ := Option.isSome_iff_exists.mp ha
    exact map_fst (h.shutdown hp shutRx shutTx sendFin)
  | abort b =>
    obtain ⟨p, hp, hlisten, hno⟩ := ha
    exact h.abort hp hlisten hno
  | arg b arg =>
    obtain ⟨p, hp⟩ := Option.isSome_iff_exists.mp ha
    exact h.arg hp arg
  | accept b accept =>
    obtain ⟨p, hp⟩ := Option.isSome_iff_exists.mp ha
    exact h.accept hp accept
  | slowtmr => exact ⟨_, h.tcpSlowtmr_eq, h.slowtmr⟩

/-! ## Runs -/

/-- `tcp_out.c` answers each call in its own way. -/
def run (L : Lwip) : List (TcpOut × Op) → Stack → Option Stack
  | [], s => some s
  | (out, op) :: ops, s => (s.step (L.answering out) op).bind (run L ops)

/-- Each call is allowed when it is made. -/
def Obeys (L : Lwip) : List (TcpOut × Op) → Stack → Prop
  | [], _ => True
  | (out, op) :: ops, s => s.Allowed op ∧ ∀ s' ∈ s.step (L.answering out) op, Obeys L ops s'

instance decidableObeys (L : Lwip) : ∀ (ops : List (TcpOut × Op)) (s : Stack), Decidable (Obeys L ops s)
  | [], _ => .isTrue trivial
  | (out, op) :: ops, s =>
    have := decidableObeys L ops
    inferInstanceAs (Decidable (s.Allowed op ∧ ∀ s' ∈ s.step (L.answering out) op, Obeys L ops s'))

/-- **The rules suffice**: the calls of an application that obeys them all come to their end, with no use of a freed block,
nothing freed twice and no assertion failed, and leave the lists in order. -/
theorem run_allowed {ops : List (TcpOut × Op)} (h : Sane L s) (hops : Obeys L ops s) :
    ∃ s', run L ops s = some s' ∧ Sane L s' := by
  induction ops generalizing s with
  | nil => exact ⟨s, rfl, h⟩
  | cons call ops ih =>
    obtain ⟨s', hstep, hsane⟩ := (sane_answering.mpr h).step hops.1
    obtain ⟨s'', hrun, hsane'⟩ := ih (sane_answering.mp hsane) (hops.2 s' hstep)
    refine ⟨s'', ?_, hsane'⟩
    rw [run, hstep, Option.bind_some, hrun]

theorem run_allowed_server : ∃ s', run twoBlocks
    (List.map (Prod.mk .atOnce) [.new 64, .bind ⟨.tcpPcb, 0⟩ 0 7, .listen ⟨.tcpPcb, 0⟩, .new 64,
      .connect ⟨.tcpPcb, 0⟩ (some 1) 80 (some ⟨2, 1500⟩) .ok, .new 64, .new 64, .slowtmr, .close ⟨.tcpPcbListen, 0⟩ .ok])
      init = some s' ∧
    Sane twoBlocks s' :=
  run_allowed sane_init (by decide +kernel)

/-! ## Aborting a bound block -/

theorem cutBehind_append {front behind : List Block} (hno : b ∉ front) :
    cutBehind b (front ++ b :: behind) = front ++ [b] := by
  have htake : (front ++ b :: behind).takeWhile (· ≠ b) = front := by
    rw [List.takeWhile_append_of_pos fun c hc => by simpa using ne_of_mem_of_not_mem hc hno]
    simp
  unfold cutBehind
  rw [if_pos (by simp), htake]

/-- `TCP_PCB_REMOVE_ACTIVE` looks for the block on the wrong list: it is freed, and stays on the one it is on, which ends
with it from then on. -/
theorem abort_bound (h : Sane L s) (hb : b ∈ s.list .bound) :
    ∃ s' front behind, s.tcpAbort L b = some s' ∧ s'.heap = Function.update s.heap b none ∧
      s.list .bound = front ++ b :: behind ∧ s'.list .bound = front ++ [b] ∧
      ∀ k ≠ .bound, (s'.list k).Perm (s.list k) := by
  obtain ⟨p, hp, hhome⟩ := h.listed hb
  have hclosed : p.state = .closed := home_eq_bound.mp hhome
  have hoff := h.off_other hp hhome
  obtain ⟨front, behind, hsplit, hno⟩ := List.eq_append_cons_of_mem hb
  unfold tcpAbort tcpAbandon
  rw [hp, Option.bind_some, if_neg (by rw [hclosed]; decide), if_neg (by rw [hclosed]; decide), h.remove_free hp]
  refine ⟨_, front, behind, rfl, rfl, hsplit, ?_, fun k hk => ?_⟩
  · dsimp only
    rw [rmv_list_of_ne (by decide), hsplit, cutBehind_append hno]
  · dsimp only
    by_cases hka : k = .active
    · subst hka
      rw [rmv_list]
      exact (L.tcpRmv_perm _ b).trans (by rw [List.erase_of_not_mem (hoff _ hk)])
    · rw [rmv_list_of_ne hka, cutBehind_of_not_mem (hoff k hk)]

/-- **`tcp_abort`** comes to its end with the lists in order exactly when the block is in use, neither listens nor is
bound.  A bound one is freed but stays on its list, and what is behind it is on no list any more. -/
theorem abort_iff (h : Sane L s) (b : Block) :
    ((∃ s', s.tcpAbort L b = some s' ∧ Sane L s') ↔ s.Allowed (.abort b)) ∧
      (b ∈ s.list .bound → ∃ s' front behind, s.tcpAbort L b = some s' ∧ s'.heap = Function.update s.heap b none ∧
        s.list .bound = front ++ b :: behind ∧ s'.list .bound = front ++ [b] ∧
        ∀ k ≠ .bound, (s'.list k).Perm (s.list k)) := by
  refine ⟨⟨fun hx => ?_, fun ha => h.step ha⟩, abort_bound h⟩
  obtain ⟨s', hs', hsane⟩ := hx
  cases hp : s.heap b with
  | none =>
    unfold tcpAbort tcpAbandon at hs'
    rw [hp] at hs'
    cases hs'
  | some p =>
    refine ⟨p, hp, fun hlisten => ?_, fun _ hbound => ?_⟩
    · unfold tcpAbort tcpAbandon at hs'
      rw [hp, Option.bind_some, if_pos hlisten] at hs'
      cases hs'
    · obtain ⟨s'', front, behind, hs'', hheap, -, hlist, -⟩ := abort_bound h hbound
      obtain rfl := Option.some.inj (hs'.symm.trans hs'')
      refine hsane.sound.not_mem_of_free (b := b) (by rw [hheap, Function.update_self]) .bound ?_
      rw [hlist]
      simp

/-- Two blocks, bound to ports 7 and 8. -/
def twoBound : Stack :=
  let s := ((init.setPcb ⟨.tcpPcb, 0⟩ (init.newPcb twoBlocks 64)).bindPort twoBlocks ⟨.tcpPcb, 0⟩
    (init.newPcb twoBlocks 64) 0 7).1
  ((s.setPcb ⟨.tcpPcb, 1⟩ (s.newPcb twoBlocks 64)).bindPort twoBlocks ⟨.tcpPcb, 1⟩ (s.newPcb twoBlocks 64) 0 8).1

theorem sane_twoBound : Sane twoBlocks twoBound := by
  have hfirst := sane_init.fresh (L := twoBlocks) (b := ⟨.tcpPcb, 0⟩) (p := init.newPcb twoBlocks 64) rfl rfl (by decide)
    rfl ⟨rfl, rfl, rfl⟩
  have hseven := hfirst.bindPort (b := ⟨.tcpPcb, 0⟩) (p := init.newPcb twoBlocks 64) rfl rfl List.not_mem_nil 0 7
  exact (hseven.fresh (b := ⟨.tcpPcb, 1⟩) rfl rfl (by decide) rfl ⟨rfl, rfl, rfl⟩).bindPort rfl rfl (by decide) 0 8

/-- The one bound to port 7 is lost with the other. -/
theorem abort_iff_port_seven : ∃ s', twoBound.tcpAbort twoBlocks ⟨.tcpPcb, 1⟩ = some s' ∧
    s'.list .bound = [⟨.tcpPcb, 1⟩] ∧ (s'.heap ⟨.tcpPcb, 0⟩).isSome ∧ ¬ Sane twoBlocks s' := by
  have hlist : twoBound.list .bound = [⟨.tcpPcb, 1⟩, ⟨.tcpPcb, 0⟩] := by decide +kernel
  obtain ⟨hiff, heffect⟩ := abort_iff sane_twoBound ⟨.tcpPcb, 1⟩
  obtain ⟨s', front, behind, hs', hheap, hsplit, hbound, -⟩ := heffect (by rw [hlist]; simp)
  refine ⟨s', hs', ?_, ?_, fun hsane => absurd (hiff.mp ⟨s', hs', hsane⟩) (by decide +kernel)⟩
  · rw [hbound]
    rw [hlist] at hsplit
    rcases front with _ | ⟨c, _ | ⟨d, front⟩⟩ <;> simp at hsplit ⊢
  · rw [hheap]
    decide +kernel

end Stack

end Tcp

end SuspiciousPackage
