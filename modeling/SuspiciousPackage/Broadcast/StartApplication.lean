import SuspiciousPackage.Tcp.Frame

/-!
# Broadcast.StartApplication — the server of `send.c` comes up

`start_application` asks `tcp.c` for a block, binds it to port 7 and listens.  On failure it returns and forgets the block
it has got by then.  `errCode` is the number of an error in `lwip/err.h`.
-/

namespace SuspiciousPackage

open Tcp Stack

section Start

variable (L : Lwip) (errCode : Err → Int)

/-- The port of the server. -/
def serverPort : BitVec 16 := 7

/-- `start_application` from `tcp_listen` on. -/
def startListening (pcb : Block) (s : Stack) : Option (Stack × Int × String) :=
  (s.tcpListen L pcb).bind fun r =>
    match r.2 with
    | none => some (r.1, -3, "Out of memory while tcp_listen\n\r")
    | some pcb =>
      (r.1.tcpAccept pcb .acceptCallback).map
        (·, 0, "TCP echo server started @ port " ++ toString serverPort.toNat ++ "\n\r")

/-- `start_application` from `tcp_bind` on. -/
def startBinding (pcb : Block) (s : Stack) : Option (Stack × Int × String) :=
  (s.tcpBind L pcb 0 serverPort).bind fun r =>
    if r.2 ≠ .ok then
      some (r.1, -2, "Unable to bind to port " ++ toString serverPort.toNat ++ ": err = " ++ toString (errCode r.2) ++ "\n\r")
    else (r.1.tcpArg pcb 0).bind (startListening L pcb)

/-- `start_application`: the value returned, and what is printed. -/
def startApplication (s : Stack) : Option (Stack × Int × String) :=
  (s.tcpNew L).bind fun r =>
    match r.2 with
    | none => some (r.1, -1, "Error creating PCB. Out of Memory\n\r")
    | some pcb => startBinding L errCode pcb r.1

end Start

namespace Tcp

namespace Stack

variable {L : Lwip} {errCode : Err → Int} {s s' s₁ s₂ s₃ : Stack} {b c pcb : Block} {p : TcpPcb}

/-- What a server holds when it listens. -/
def listening : TcpPcb where
  state := .listen
  prio := tcpPrioNormal
  callbackArg := 0
  accept := .acceptCallback
  localIp := 0
  localPort := serverPort
  remoteIp := 0
  remotePort := 0
  keepalive := false
  rxClosed := false
  polltmr := 0
  pollinterval := 0
  lastTimer := 0
  tmr := 0
  rcvWnd := 0
  refusedData := false
  keepIdle := 0
  tx := .zero

/-- A block that is bound or listens on the port of the server. -/
def OnServerPort (s : Stack) (c : Block) : Prop := s.Open c ∧ ∃ p, s.heap c = some p ∧ p.localPort = serverPort

theorem OnServerPort.usesAddress (h : s.OnServerPort c) : s.usesAddress 0 serverPort = true := by
  obtain ⟨ho, p, hp, hport⟩ := h
  refine List.any_eq_true.mpr ⟨c, mem_listed_of_open ho, ?_⟩
  simp [hp, hport]

/-- The new block, bound. -/
def boundToServerPort (L : Lwip) (pcb : Block) (s : Stack) (p : TcpPcb) : Stack :=
  (s.setPcb pcb { p with localPort := serverPort }).reg L .bound pcb

theorem tcpBind_serverPort (hp : s.heap b = some p) (hclosed : p.state = .closed) : s.tcpBind L b 0 serverPort =
    some (if s.usesAddress 0 serverPort then (s, .use) else (s.boundToServerPort L b p, .ok)) := by
  unfold tcpBind
  rw [hp, Option.map_some, if_neg (not_not_intro hclosed)]
  rfl

theorem malloc_congr {k : Pool} (h : ∀ c, (s'.heap c).isSome = (s.heap c).isSome) : s'.malloc L k = s.malloc L k := by
  unfold malloc
  congr 1
  funext c
  exact h c

theorem heap_boundToServerPort (hp : s.heap b = some p) (c : Block) :
    ((s.boundToServerPort L b p).heap c).isSome = (s.heap c).isSome := by
  show (Function.update s.heap b _ c).isSome = _
  by_cases hc : c = b
  · subst hc
    rw [Function.update_self, hp]
    rfl
  · rw [Function.update_of_ne hc]

theorem tcpArg_eq {arg : ℕ} (hp : s.heap b = some p) (harg : p.callbackArg = arg) : s.tcpArg b arg = some s := by
  unfold tcpArg setPcb
  rw [hp, Option.map_some, ← harg, ← hp, Function.update_eq_self]

theorem mem_reg {k : ListId} : b ∈ (s.reg L k b).list k := by
  show b ∈ Function.update s.list k (L.tcpReg (s.list k) b) k
  rw [Function.update_self, (L.tcpReg_perm _ b).mem_iff]
  exact List.mem_cons_self

/-- A bound block gives way to one that listens, if there is one. -/
theorem tcpListen_bound (hp : s.heap b = some p) (hclosed : p.state = .closed) (hport : p.localPort ≠ 0) :
    (s.malloc L .tcpPcbListen = none ∧ s.tcpListen L b = some (s, none)) ∨
      ∃ lpcb s', s.malloc L .tcpPcbListen = some lpcb ∧ s.tcpListen L b = some (s', some lpcb) ∧
        s'.heap lpcb = some (TcpPcb.mk .listen p.prio p.callbackArg .tcpAcceptNull p.localIp p.localPort 0 0 p.keepalive
          false 0 0 0 0 0 false 0 .zero) ∧
        s'.heap b = none ∧ lpcb ∈ s'.list .listen := by
  unfold tcpListen
  rw [hp, Option.bind_some, if_neg (not_not_intro hclosed)]
  cases hm : s.malloc L .tcpPcbListen with
  | none => exact Or.inl ⟨rfl, rfl⟩
  | some lpcb =>
    have hne : b ≠ lpcb := by
      rintro rfl
      rw [(malloc_some hm).2.2] at hp
      cases hp
    refine Or.inr ⟨lpcb, ?_⟩
    dsimp only
    rw [if_pos hport, free_eq (p := p) ((Function.update_of_ne hne ..).trans hp), Option.map_some]
    exact ⟨_, rfl, rfl, (Function.update_of_ne hne.symm ..).trans (Function.update_self ..), Function.update_self ..,
      mem_reg⟩

/-- What `start_application` leaves when it has bound block `b`. -/
def StartedWith (L : Lwip) (b : Block) (s₁ s' : Stack) (code : Int) : Prop :=
  (code = -3 ∧ s₁.malloc L .tcpPcbListen = none ∧ b ∈ s'.list .bound ∧ s'.OnServerPort b) ∨
    (code = 0 ∧ ∃ lpcb, s₁.malloc L .tcpPcbListen = some lpcb ∧ lpcb ∈ s'.list .listen ∧ s'.heap lpcb = some listening)

theorem startListening_cases (h : Sane L s) (hp : s.heap b = some { s₁.newPcb L tcpPrioNormal with localPort := serverPort })
    (hbound : b ∈ s.list .bound) :
    ∃ s' code printed, startListening L b s = some (s', code, printed) ∧ Sane L s' ∧ StartedWith L b s s' code := by
  obtain ⟨r, hr, hsane⟩ := h.listen hp fun _ => Or.inl hbound
  unfold startListening
  rcases tcpListen_bound (L := L) hp rfl (by show serverPort ≠ 0; decide) with ⟨hm, heq⟩ | ⟨lpcb, a, hm, heq, hlp, -, hmem⟩
  · obtain rfl := Option.some.inj (hr.symm.trans heq)
    rw [heq, Option.bind_some]
    exact ⟨s, -3, _, rfl, h, Or.inl ⟨rfl, hm, hbound, Or.inl hbound, _, hp, rfl⟩⟩
  · obtain rfl := Option.some.inj (hr.symm.trans heq)
    obtain ⟨s', hs', hsane'⟩ := hsane.accept hlp .acceptCallback
    rw [heq, Option.bind_some]
    dsimp only at hs' ⊢
    rw [hs', Option.map_some]
    refine ⟨s', 0, _, rfl, hsane', Or.inr ⟨rfl, lpcb, hm, ?_⟩⟩
    unfold tcpAccept at hs'
    rw [hlp, Option.map_some] at hs'
    obtain rfl := Option.some.inj hs'
    exact ⟨hmem, Function.update_self ..⟩

/-- **`start_application`**, after the block it gets. -/
theorem startApplication_cases (h : Sane L s) (errCode : Err → Int) :
    (s.tcpNew L = some (s, none) ∧ ∃ printed, startApplication L errCode s = some (s, -1, printed)) ∨
      ∃ s₁ b, s.tcpNew L = some (s₁, some b) ∧ Sane L s₁ ∧ Renewed L tcpPrioNormal b s s₁ ∧
        ((s₁.usesAddress 0 serverPort = true ∧ ∃ printed, startApplication L errCode s = some (s₁, -2, printed)) ∨
          (s₁.usesAddress 0 serverPort = false ∧ ∃ s' code printed,
            startApplication L errCode s = some (s', code, printed) ∧ Sane L s' ∧ StartedWith L b s₁ s' code)) := by
  unfold startApplication tcpNew
  rcases h.alloc_renewed tcpPrioNormal with heq | ⟨s₁, b, heq, hsane, hre, -⟩
  · rw [heq, Option.bind_some]
    exact Or.inl ⟨rfl, _, rfl⟩
  refine Or.inr ⟨s₁, b, heq, hsane, hre, ?_⟩
  have hno : b ∉ s₁.list .bound := fun hmem => ((hre.list _ b).mp hmem).2 rfl
  obtain ⟨r, hr, hbound⟩ := hsane.bind hre.new (fun _ => hno) 0 serverPort
  have hbind := tcpBind_serverPort (L := L) hre.new rfl
  rw [heq, Option.bind_some]
  dsimp only
  unfold startBinding
  cases huse : s₁.usesAddress 0 serverPort with
  | true =>
    rw [huse, if_pos rfl] at hbind
    rw [hbind, Option.bind_some, if_pos (fun hx => by cases hx)]
    exact Or.inl ⟨rfl, _, rfl⟩
  | false =>
    rw [huse, if_neg (by decide)] at hbind
    obtain rfl := Option.some.inj (hr.symm.trans hbind)
    have hheld : (s₁.boundToServerPort L b (s.newPcb L tcpPrioNormal)).heap b =
        some { s.newPcb L tcpPrioNormal with localPort := serverPort } := Function.update_self ..
    obtain ⟨s', code, printed, hs', hsane', hstart⟩ := startListening_cases hbound hheld mem_reg
    have harg : (s₁.boundToServerPort L b (s.newPcb L tcpPrioNormal)).tcpArg b 0 = some _ := tcpArg_eq hheld rfl
    rw [hbind, Option.bind_some, if_neg (not_not_intro rfl)]
    dsimp only
    rw [harg, Option.bind_some]
    refine Or.inr ⟨rfl, s', code, printed, hs', hsane', ?_⟩
    have hmalloc := malloc_congr (L := L) (k := .tcpPcbListen) (heap_boundToServerPort (L := L) hre.new)
    unfold StartedWith at hstart ⊢
    rwa [hmalloc] at hstart

/-! ## One server -/

/-- Started, the server listens on its port, and nobody else is bound to it. -/
theorem Sane.alone (h : Sane L s) (hb : b ∈ s.list .listen) (hp : s.heap b = some listening) (hne : c ≠ b) (ho : s.Open c)
    {q : TcpPcb} (hq : s.heap c = some q) : q.localPort ≠ serverPort := fun hport =>
  h.addresses b c _ q hne.symm (Or.inr hb) ho hp hq ⟨hport.symm, by decide, Or.inl rfl⟩

theorem StartedWith.onServerPort {code : Int} (h : StartedWith L b s₁ s' code) :
    ∃ c p, s'.OnServerPort c ∧ s'.heap c = some p ∧ (c ∈ s'.list .bound ∨ c ∈ s'.list .listen) := by
  rcases h with ⟨-, -, hb, hon⟩ | ⟨-, lpcb, -, hmem, hp⟩
  · obtain ⟨p, hp, -⟩ := hon.2
    exact ⟨b, p, hon, hp, Or.inl hb⟩
  · exact ⟨lpcb, _, ⟨Or.inr hmem, _, hp, rfl⟩, hp, Or.inr hmem⟩

theorem OnServerPort.lasting (h : Sane L s) (hon : s.OnServerPort c) (hp : s.heap c = some p) : Lasting p := by
  rcases hon.1 with hl | hl
  · exact Or.inl (home_eq_bound.mp (h.sound.home_eq hl hp))
  · exact Or.inr (home_eq_listen.mp (h.sound.home_eq hl hp))

theorem OnServerPort.of_keeps (hon : s.OnServerPort c) (hk : Keeps c s s') : s'.OnServerPort c := by
  obtain ⟨ho, p, hp, hport⟩ := hon
  exact ⟨ho.imp (hk.list _).mpr (hk.list _).mpr, p, hk.heap.trans hp, hport⟩

/-- With the port taken, `start_application` does not come to `tcp_listen`. -/
theorem startApplication_taken (h : Sane L s) (hon : s.OnServerPort c) (errCode : Err → Int) :
    ∃ s' code printed, startApplication L errCode s = some (s', code, printed) ∧ (code = -1 ∨ code = -2) := by
  obtain ⟨p, hp, -⟩ := hon.2
  rcases startApplication_cases h errCode with
    ⟨-, printed, heq⟩ | ⟨s₁, b, hnew, -, -, ⟨-, printed, heq⟩ | ⟨hfree, -⟩⟩
  · exact ⟨s, -1, printed, heq, Or.inl rfl⟩
  · exact ⟨s₁, -2, printed, heq, Or.inr rfl⟩
  · -- a lasting block is not given up for the new one
    have hkeep := h.keeps_alloc hp (hon.lasting h hp) hnew
    rw [(hon.of_keeps hkeep).usesAddress] at hfree
    cases hfree

/-- **The server comes up** exactly when there is a block to be had, the port is free then, and so is a block to listen
with; it then listens on its port, with its callback, and is alone there.  Whatever happens the lists stay in order. -/
theorem server_started (h : Sane L s) (errCode : Err → Int) :
    ∃ s' code printed, startApplication L errCode s = some (s', code, printed) ∧ Sane L s' ∧
      (code = 0 ∨ code = -1 ∨ code = -2 ∨ code = -3) ∧
      (code = 0 ↔ ∃ s₁ b, s.tcpNew L = some (s₁, some b) ∧ s₁.usesAddress 0 serverPort = false ∧
        s₁.malloc L .tcpPcbListen ≠ none) ∧
      (code = 0 → ∃ b ∈ s'.list .listen, s'.heap b = some listening ∧
        ∀ c ≠ b, s'.Open c → ∀ q, s'.heap c = some q → q.localPort ≠ serverPort) := by
  rcases startApplication_cases h errCode with
    ⟨hnew, printed, heq⟩ | ⟨s₁, b, hnew, hsane, -, ⟨huse, printed, heq⟩ | ⟨huse, s', code, printed, heq, hsane', hstart⟩⟩
  · refine ⟨s, -1, printed, heq, h, by simp, ⟨fun hx => by simp at hx, ?_⟩, fun hx => by simp at hx⟩
    rintro ⟨a, c, ha, -⟩
    rw [hnew] at ha
    cases ha
  · refine ⟨s₁, -2, printed, heq, hsane, by simp, ⟨fun hx => by simp at hx, ?_⟩, fun hx => by simp at hx⟩
    rintro ⟨a, c, ha, hfree, -⟩
    rw [hnew] at ha
    cases ha
    rw [huse] at hfree
    cases hfree
  · refine ⟨s', code, printed, heq, hsane', ?_, ?_, ?_⟩
    · rcases hstart with ⟨rfl, -⟩ | ⟨rfl, -⟩ <;> simp
    · rcases hstart with ⟨rfl, hnone, -⟩ | ⟨rfl, lpcb, hsome, -⟩
      · refine ⟨fun hx => by simp at hx, ?_⟩
        rintro ⟨a, c, ha, -, hlp⟩
        rw [hnew] at ha
        cases ha
        exact absurd hnone hlp
      · exact ⟨fun _ => ⟨s₁, b, hnew, huse, by rw [hsome]; exact Option.some_ne_none lpcb⟩, fun _ => rfl⟩
    · rintro rfl
      rcases hstart with ⟨hx, -⟩ | ⟨-, lpcb, -, hmem, hp⟩
      · simp at hx
      · exact ⟨lpcb, hmem, hp, fun c hc ho q hq => hsane'.alone hmem hp hc ho hq⟩

theorem server_started_first : ∃ s' printed, startApplication twoBlocks (fun _ => -8) init = some (s', 0, printed) ∧
    ∃ b ∈ s'.list .listen, s'.heap b = some listening := by
  obtain ⟨s', code, printed, heq, -, -, hiff, hlisten⟩ := server_started (L := twoBlocks) sane_init fun _ => -8
  obtain rfl := hiff.mpr ⟨_, _, rfl, by decide +kernel, by decide +kernel⟩
  obtain ⟨b, hb, hp, -⟩ := hlisten rfl
  exact ⟨s', printed, heq, b, hb, hp⟩

/-- **Only one server.**  Once `start_application` has listened, or has bound the port and failed to listen, it does not
get as far again, whatever is called in between that leaves the block on the port alone. -/
theorem one_server {code : Int} {printed : String} {ops : List (TcpOut × Op)} (h : Sane L s)
    (hstart : startApplication L errCode s = some (s₁, code, printed)) (hcode : code = 0 ∨ code = -3)
    (hops : Obeys L ops s₁) (huse : ∀ call ∈ ops, ∀ c, s₁.OnServerPort c → ¬ Uses c call.2)
    (hrun : run L ops s₁ = some s₂) :
    ∃ s₃ code' printed', startApplication L errCode s₂ = some (s₃, code', printed') ∧ (code' = -1 ∨ code' = -2) := by
  rcases startApplication_cases h errCode with
    ⟨-, msg, heq⟩ | ⟨a, b, -, -, -, ⟨-, msg, heq⟩ | ⟨-, s', code', msg, heq, hsane, hwith⟩⟩
  · rw [hstart] at heq
    cases heq
    simp at hcode
  · rw [hstart] at heq
    cases heq
    simp at hcode
  · rw [hstart] at heq
    cases heq
    obtain ⟨c, p, hon, hp, -⟩ := hwith.onServerPort
    obtain ⟨hsane₂, hkeep⟩ := hsane.run_keeps hops hp (hon.lasting hsane hp) (fun call hcall => huse call hcall c hon) hrun
    exact startApplication_taken hsane₂ (hon.of_keeps hkeep) errCode

theorem one_server_again : ∃ r s₂ r', startApplication twoBlocks (fun _ => -8) init = some r ∧
    run twoBlocks [(.atOnce, .new 64), (.atOnce, .slowtmr)] r.1 = some s₂ ∧
    startApplication twoBlocks (fun _ => -8) s₂ = some r' ∧ (r'.2.1 = -1 ∨ r'.2.1 = -2) := by
  have hstart : ∃ r, startApplication twoBlocks (fun _ => -8) init = some r ∧ r.2.1 = 0 ∧
      Obeys twoBlocks [(.atOnce, .new 64), (.atOnce, .slowtmr)] r.1 ∧
      (run twoBlocks [(.atOnce, .new 64), (.atOnce, .slowtmr)] r.1).isSome :=
    ⟨_, rfl, by decide +kernel, by decide +kernel, by decide +kernel⟩
  obtain ⟨r, hr, hcode, hops, hsome⟩ := hstart
  obtain ⟨s₂, hs₂⟩ := Option.isSome_iff_exists.mp hsome
  obtain ⟨s₃, code', printed', hr', hcode'⟩ := one_server sane_init hr (Or.inl hcode) hops (by simp [Uses]) hs₂
  exact ⟨r, s₂, _, hr, hs₂, hr', hcode'⟩

end Stack

end Tcp

end SuspiciousPackage
