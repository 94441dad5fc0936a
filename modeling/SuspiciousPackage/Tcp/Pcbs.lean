import Mathlib.Data.BitVec
import SuspiciousPackage.Resource.Walk

/-!
# Tcp.Pcbs — the control blocks of `tcp.c` and their lists

The functions of `tcp.c` that allocate, bind, connect, close and abort control blocks, and the slow timer, on a heap of
blocks and the four lists `tcp_pcb_lists`.  `Lwip` is what they use of the headers and files that are not there: the
macros `TCP_REG` and `TCP_RMV`, the pools of `memp`, the options, and the functions of `tcp_out.c` (`TcpOut`), which change
nothing but how far the transmission of a block is.  What the rest of the stack answers is an argument (`route`, `enqueue`,
`sendFin`).

The options not named are at their defaults (no `SO_REUSE`, `TCP_LISTEN_BACKLOG`, `LWIP_TCP_KEEPALIVE` or `TCP_DEBUG`, but
`TCP_QUEUE_OOSEQ`), and no error or poll callback is set.  A call with a block that has been freed, freeing one twice and
a failed `LWIP_ASSERT` are `none`.  The searches pass over a block on a list that has been freed, and `reg` takes the block
for one on no list; `Sane` and `Allowed` rule out both.
-/

namespace SuspiciousPackage

namespace Tcp

open Resource

/-- `enum tcp_state` -/
inductive TcpState
  | closed
  | listen
  | synSent
  | synRcvd
  | established
  | finWait1
  | finWait2
  | closeWait
  | closing
  | lastAck
  | timeWait
deriving DecidableEq, Repr

/-- The indices of `tcp_pcb_lists`. -/
inductive ListId
  | listen
  | bound
  | active
  | timeWait
deriving DecidableEq, Repr

/-- The list for a state. -/
def TcpState.home : TcpState → ListId
  | .closed => .bound
  | .listen => .listen
  | .timeWait => .timeWait
  | _ => .active

/-- `MEMP_TCP_PCB` and `MEMP_TCP_PCB_LISTEN` -/
inductive Pool
  | tcpPcb
  | tcpPcbListen
deriving DecidableEq, Repr

structure Block where
  pool : Pool
  index : ℕ
deriving DecidableEq, Repr

/-- The callbacks for a new connection. -/
inductive Accept
  | null
  | tcpAcceptNull
  | acceptCallback
deriving DecidableEq, Repr

/-- How far the transmission is: the fields of `struct tcp_pcb` that the functions of `tcp_out.c` may change.  Pointers to
segments are there by whether they are set. -/
structure Transmission where
  /-- `TF_ACK_DELAY` -/
  ackDelay : Bool
  /-- `TF_ACK_NOW` -/
  ackNow : Bool
  rtime : BitVec 16
  mss : BitVec 16
  sa : BitVec 16
  sv : BitVec 16
  rto : BitVec 16
  nrtx : BitVec 8
  cwnd : BitVec 16
  ssthresh : BitVec 16
  sndWnd : BitVec 16
  unsent : Bool
  unacked : Bool
  ooseq : Bool
  persistCnt : BitVec 8
  persistBackoff : BitVec 8
  keepCntSent : BitVec 8
deriving DecidableEq, Repr

/-- After `memset`. -/
def Transmission.zero : Transmission := ⟨false, false, 0, 0, 0, 0, 0, 0, 0, 0, 0, false, false, false, 0, 0, 0⟩

/-- No segment is queued. -/
def Transmission.NoSegs (tx : Transmission) : Prop := tx.unsent = false ∧ tx.unacked = false ∧ tx.ooseq = false

instance (tx : Transmission) : Decidable tx.NoSegs := inferInstanceAs (Decidable (_ ∧ _))

/-- The fields of `struct tcp_pcb` that are used here; a listening block has the common ones of them.  The address `0` is
`IP_ADDR_ANY`, and `refusedData` says whether the pointer is set. -/
structure TcpPcb where
  state : TcpState
  prio : BitVec 8
  callbackArg : ℕ
  accept : Accept
  localIp : BitVec 32
  localPort : BitVec 16
  remoteIp : BitVec 32
  remotePort : BitVec 16
  /-- `SOF_KEEPALIVE` -/
  keepalive : Bool
  /-- `TF_RXCLOSED` -/
  rxClosed : Bool
  polltmr : BitVec 8
  pollinterval : BitVec 8
  lastTimer : BitVec 8
  tmr : BitVec 32
  rcvWnd : BitVec 16
  refusedData : Bool
  keepIdle : BitVec 32
  tx : Transmission
deriving DecidableEq, Repr

/-- `err_t` -/
inductive Err
  | ok
  | mem
  | buf
  | rte
  | val
  | use
  | isconn
  | conn
deriving DecidableEq, Repr

/-- The options of the stack. -/
structure Options where
  tcpWnd : BitVec 16
  tcpMss : BitVec 16
  tcpSynmaxrtx : BitVec 8
  tcpMaxrtx : BitVec 8
  tcpSlowInterval : ℕ
  tcpFinWaitTimeout : ℕ
  tcpSynRcvdTimeout : ℕ
  tcpMsl : ℕ
  tcpOoseqTimeout : BitVec 32
  tcpKeepidleDefault : BitVec 32
  tcpKeepintvlDefault : BitVec 32
  tcpMaxidle : BitVec 32

/-- What the functions of `tcp_out.c` make of the blocks, in one call. -/
structure TcpOut where
  /-- `tcp_enqueue_flags(pcb, TCP_SYN)`, when it succeeds. -/
  tcpEnqueueSyn : Block → TcpPcb → Transmission
  /-- `tcp_send_fin`, when it succeeds. -/
  tcpSendFin : Block → TcpPcb → Transmission
  tcpOutput : Block → TcpPcb → Transmission
  tcpRexmitRto : Block → TcpPcb → Transmission
  tcpZeroWindowProbe : Block → TcpPcb → Transmission
  tcpKeepalive : Block → TcpPcb → Transmission
  tcpOutput_noSegs : ∀ b p, p.tx.NoSegs → (tcpOutput b p).NoSegs

/-- What `tcp.c` uses of the rest of the stack. -/
structure Lwip extends Options, TcpOut where
  tcpReg : List Block → Block → List Block
  tcpRmv : List Block → Block → List Block
  tcpReg_perm : ∀ l b, (tcpReg l b).Perm (b :: l)
  tcpRmv_perm : ∀ l b, (tcpRmv l b).Perm (l.erase b)
  /-- The number of blocks of a pool. -/
  memp : Pool → ℕ
  /-- `memp_malloc`, by the blocks in use. -/
  malloc : Pool → (Block → Bool) → Option Block
  malloc_some : ∀ k used b, malloc k used = some b → b.pool = k ∧ b.index < memp k ∧ used b = false
  malloc_none : ∀ k used, malloc k used = none → ∀ i < memp k, used ⟨k, i⟩ = true
  /-- What lies behind a table, by the index with which it is read. -/
  beyond : ℕ → ℕ

/-- The same with other answers of `tcp_out.c`. -/
def Lwip.answering (L : Lwip) (out : TcpOut) : Lwip := { L with toTcpOut := out }

/-- All that is queued is sent at once. -/
def TcpOut.atOnce : TcpOut where
  tcpEnqueueSyn _ p := { p.tx with unsent := true }
  tcpSendFin _ p := { p.tx with unsent := true }
  tcpOutput _ p :=
    { p.tx with unsent := false, unacked := p.tx.unsent || p.tx.unacked, ackDelay := false, ackNow := false }
  tcpRexmitRto _ p := { p.tx with nrtx := p.tx.nrtx + 1 }
  tcpZeroWindowProbe _ p := p.tx
  tcpKeepalive _ p := p.tx
  tcpOutput_noSegs _ p h := ⟨rfl, by simp [h.1, h.2.1], h.2.2⟩

/-- A block goes to the head of a list, and the first free one is given out. -/
def Lwip.firstFit (options : Options) (memp : Pool → ℕ) : Lwip where
  toOptions := options
  toTcpOut := .atOnce
  tcpReg l b := b :: l
  tcpRmv l b := l.erase b
  tcpReg_perm _ _ := List.Perm.refl _
  tcpRmv_perm _ _ := List.Perm.refl _
  memp := memp
  malloc k used := ((List.range (memp k)).map (Block.mk k)).find? fun b => !used b
  malloc_some k used b hb := by
    obtain ⟨i, hi, rfl⟩ := List.mem_map.mp (List.mem_of_find?_eq_some hb)
    have hused := List.find?_some hb
    simp only [Bool.not_eq_true'] at hused
    exact ⟨rfl, List.mem_range.mp hi, hused⟩
  malloc_none k used hnone i hi := by
    have hused := List.find?_eq_none.mp hnone ⟨k, i⟩ (List.mem_map_of_mem (List.mem_range.mpr hi))
    simpa using hused
  beyond _ := 0

/-- Two blocks of each kind, and the options as they usually are. -/
def twoBlocks : Lwip := .firstFit
  { tcpWnd := 0x2000, tcpMss := 1460, tcpSynmaxrtx := 6, tcpMaxrtx := 12, tcpSlowInterval := 500
    tcpFinWaitTimeout := 20000, tcpSynRcvdTimeout := 20000, tcpMsl := 60000, tcpOoseqTimeout := 6
    tcpKeepidleDefault := 7200000, tcpKeepintvlDefault := 75000, tcpMaxidle := 675000 }
  fun _ => 2

/-- The control blocks, the last port given out and the clocks of the timers. -/
structure Stack extends Lists Block ListId TcpPcb where
  tcpPort : BitVec 16
  tcpTicks : BitVec 32
  tcpTimerCtr : BitVec 8

def init : Stack where
  heap _ := none
  list _ := []
  tcpPort := 0xc000
  tcpTicks := 0
  tcpTimerCtr := 0

namespace Stack

variable (L : Lwip)

def setPcb (b : Block) (p : TcpPcb) (s : Stack) : Stack := { s with heap := Function.update s.heap b (some p) }

def reg (k : ListId) (b : Block) (s : Stack) : Stack :=
  { s with list := Function.update s.list k (L.tcpReg (s.list k) b) }

/-- A list after `b->next = NULL`. -/
def cutBehind (b : Block) (l : List Block) : List Block := if b ∈ l then l.takeWhile (· ≠ b) ++ [b] else l

/-- `TCP_RMV` takes the block from the list named and clears its link; on another list it cuts off what is behind it. -/
def rmv (k : ListId) (b : Block) (s : Stack) : Stack :=
  { s with list := Function.update (fun j => cutBehind b (s.list j)) k (L.tcpRmv (s.list k) b) }

/-- `memp_malloc` -/
def malloc (k : Pool) (s : Stack) : Option Block := L.malloc k fun b => (s.heap b).isSome

/-- `memp_free` -/
def free (b : Block) (s : Stack) : Option Stack :=
  (s.heap b).map fun _ => { s with heap := Function.update s.heap b none }

/-- The blocks of all lists, in the order in which the loops go through them. -/
def listed (s : Stack) : List Block := s.list .listen ++ s.list .bound ++ s.list .active ++ s.list .timeWait

/-! ## Ports and addresses -/

/-- A block on a list has the local port `port`. -/
def usesPort (port : BitVec 16) (s : Stack) : Bool :=
  s.listed.any fun c => (s.heap c).any fun p => p.localPort == port

/-- `tcp_port++`, from the end of the range to its start. -/
def nextPort (port : BitVec 16) : BitVec 16 := if port = 0xffff then 0xc000 else port + 1

/-- The search of `tcp_new_port` with `n` conflicts left: `tcp_port` and the port returned. -/
def newPortLoop (used : BitVec 16 → Bool) : ℕ → BitVec 16 → BitVec 16 × BitVec 16
  | 0, port => (port, 0)
  | n + 1, port => if used (nextPort port) then newPortLoop used n (nextPort port) else (nextPort port, nextPort port)

/-- `tcp_new_port` -/
def tcpNewPort (s : Stack) : Stack × BitVec 16 :=
  ({ s with tcpPort := (newPortLoop (fun port => s.usesPort port) 0x4000 s.tcpPort).1 },
    (newPortLoop (fun port => s.usesPort port) 0x4000 s.tcpPort).2)

/-- A block on a list has the port and an address that meets `ip`. -/
def usesAddress (ip : BitVec 32) (port : BitVec 16) (s : Stack) : Bool :=
  s.listed.any fun c => (s.heap c).any fun p =>
    p.localPort == port && (p.localIp == 0 || ip == 0 || p.localIp == ip)

/-- The port asked for, or a new one. -/
def portOrNew (port : BitVec 16) (s : Stack) : Stack × BitVec 16 := if port = 0 then s.tcpNewPort else (s, port)

/-- `tcp_bind` from the check of the address on; the port is `0` when there is none left. -/
def bindPort (b : Block) (pcb : TcpPcb) (ip : BitVec 32) (port : BitVec 16) (s : Stack) : Stack × Err :=
  if port = 0 then (s, .buf)
  else if s.usesAddress ip port then (s, .use)
  else
    ((s.setPcb b { pcb with localIp := if ip = 0 then pcb.localIp else ip, localPort := port }).reg L .bound b, .ok)

/-- `tcp_bind` -/
def tcpBind (b : Block) (ip : BitVec 32) (port : BitVec 16) (s : Stack) : Option (Stack × Err) :=
  (s.heap b).map fun pcb =>
    if pcb.state ≠ .closed then (s, .val)
    else (s.portOrNew port).1.bindPort L b pcb ip (s.portOrNew port).2

/-- `tcp_listen_with_backlog` -/
def tcpListen (b : Block) (s : Stack) : Option (Stack × Option Block) :=
  (s.heap b).bind fun pcb =>
    if pcb.state ≠ .closed then some (s, none)
    else
      match s.malloc L .tcpPcbListen with
      | none => some (s, none)
      | some lpcb =>
        let s := s.setPcb lpcb
          { state := .listen, prio := pcb.prio, callbackArg := pcb.callbackArg, accept := .tcpAcceptNull
            localIp := pcb.localIp, localPort := pcb.localPort, remoteIp := 0, remotePort := 0
            keepalive := pcb.keepalive, rxClosed := false, polltmr := 0, pollinterval := 0, lastTimer := 0, tmr := 0
            rcvWnd := 0, refusedData := false, keepIdle := 0, tx := .zero }
        let s := if pcb.localPort ≠ 0 then s.rmv L .bound b else s
        (s.free b).map fun s => (s.reg L .listen lpcb, some lpcb)

/-- The interface that `ip_route` finds. -/
structure Netif where
  ipAddr : BitVec 32
  mtu : BitVec 16

/-- `tcp_eff_send_mss`; the headers of IP and TCP have 20 bytes each. -/
def tcpEffSendMss (sendmss : BitVec 16) (outif : Option Netif) : BitVec 16 :=
  match outif with
  | some netif =>
    if netif.mtu ≠ 0 ∧ (netif.mtu - 40).toNat < sendmss.toNat then netif.mtu - 40 else sendmss
  | none => sendmss

/-- The initial MSS: `TCP_MSS`, but at most 536. -/
def initialMss : BitVec 16 := if 536 < L.tcpMss.toNat then 536 else L.tcpMss

/-- The windows of a block that connects. -/
def startWindows (pcb : TcpPcb) (route : Option Netif) : TcpPcb :=
  { pcb with
    rcvWnd := L.tcpWnd
    tx := { pcb.tx with
      sndWnd := L.tcpWnd, mss := tcpEffSendMss (initialMss L) route, cwnd := 1
      ssthresh := tcpEffSendMss (initialMss L) route * 10 } }

/-- The block once its SYN is enqueued, and sent. -/
def synSent (b : Block) (pcb : TcpPcb) : TcpPcb :=
  let pcb := { pcb with tx := L.tcpEnqueueSyn b pcb, state := .synSent }
  { pcb with tx := L.tcpOutput b pcb }

/-- `tcp_connect` once the local address and port of `pcb` are set; `oldLocalPort` is the port it came with. -/
def connectFrom (b : Block) (pcb : TcpPcb) (oldLocalPort : BitVec 16) (route : Option Netif) (enqueue : Err) (s : Stack) :
    Stack × Err :=
  if pcb.localPort = 0 then (s.setPcb b pcb, .buf)
  else if enqueue ≠ .ok then (s.setPcb b (startWindows L pcb route), enqueue)
  else
    let s := s.setPcb b (synSent L b (startWindows L pcb route))
    ((if oldLocalPort ≠ 0 then s.rmv L .bound b else s).reg L .active b, .ok)

/-- The local address, or that of the interface to the remote host. -/
def localAddress (pcb : TcpPcb) (route : Option Netif) : Option (BitVec 32) :=
  if pcb.localIp = 0 then route.map Netif.ipAddr else some pcb.localIp

/-- `tcp_connect`; `route` is what `ip_route` finds, `enqueue` what `tcp_enqueue_flags` says, and the address `none` is
NULL. -/
def tcpConnect (b : Block) (ipaddr : Option (BitVec 32)) (port : BitVec 16) (route : Option Netif) (enqueue : Err)
    (s : Stack) : Option (Stack × Err) :=
  (s.heap b).map fun pcb =>
    if pcb.state ≠ .closed then (s, .isconn)
    else
      match ipaddr with
      | none => (s, .val)
      | some ip =>
        match localAddress pcb route with
        | none => (s.setPcb b { pcb with remoteIp := ip, remotePort := port }, .rte)
        | some localIp =>
          (s.portOrNew pcb.localPort).1.connectFrom L b
            { pcb with
              remoteIp := ip, remotePort := port, localIp := localIp, localPort := (s.portOrNew pcb.localPort).2 }
            pcb.localPort route enqueue

/-! ## Closing -/

/-- `tcp_pcb_purge` -/
def purge (pcb : TcpPcb) : TcpPcb :=
  if pcb.state = .closed ∨ pcb.state = .timeWait ∨ pcb.state = .listen then pcb
  else
    { pcb with
      refusedData := false
      tx := { pcb.tx with rtime := -1, unsent := false, unacked := false, ooseq := false } }

/-- A delayed acknowledgement is sent. -/
def ackDelayed (b : Block) (pcb : TcpPcb) : TcpPcb :=
  if pcb.state ≠ .timeWait ∧ pcb.state ≠ .listen ∧ pcb.tx.ackDelay then
    { pcb with tx := L.tcpOutput b { pcb with tx := { pcb.tx with ackNow := true } } }
  else pcb

/-- `tcp_pcb_remove`; segments may not leak. -/
def tcpPcbRemove (k : ListId) (b : Block) (s : Stack) : Option Stack :=
  (s.heap b).bind fun pcb =>
    let pcb := ackDelayed L b (purge pcb)
    if pcb.state ≠ .listen ∧ ¬ pcb.tx.NoSegs then none
    else some ((s.rmv L k b).setPcb b { pcb with state := .closed })

/-- The block once its FIN is enqueued, and sent. -/
def finSent (b : Block) (state : TcpState) (pcb : TcpPcb) : TcpPcb :=
  let pcb := { pcb with tx := L.tcpSendFin b pcb, state := state }
  { pcb with tx := L.tcpOutput b pcb }

/-- The `switch` of `tcp_close_shutdown`; `sendFin` is what `tcp_send_fin` says. -/
def closeSwitch (b : Block) (pcb : TcpPcb) (sendFin : Err) (s : Stack) : Option (Stack × Err) :=
  match pcb.state with
  | .closed => ((if pcb.localPort ≠ 0 then s.rmv L .bound b else s).free b).map (·, .ok)
  | .listen => ((s.tcpPcbRemove L .listen b).bind (·.free b)).map (·, .ok)
  | .synSent => ((s.tcpPcbRemove L .active b).bind (·.free b)).map (·, .ok)
  | .synRcvd | .established => some (if sendFin = .ok then s.setPcb b (finSent L b .finWait1 pcb) else s, sendFin)
  | .closeWait => some (if sendFin = .ok then s.setPcb b (finSent L b .lastAck pcb) else s, sendFin)
  | _ => some (s, .ok)

/-- A connection with data the application has not received is reset. -/
def closeReset (b : Block) (pcb : TcpPcb) (s : Stack) : Option (Stack × Err) :=
  let s := (s.setPcb b (purge pcb)).rmv L .active b
  if pcb.state = .established then some ((s.setPcb b { purge pcb with state := .timeWait }).reg L .timeWait b, .ok)
  else (s.free b).map (·, .ok)

/-- `tcp_close_shutdown` -/
def tcpCloseShutdown (b : Block) (rstOnUnackedData : Bool) (sendFin : Err) (s : Stack) : Option (Stack × Err) :=
  (s.heap b).bind fun pcb =>
    if rstOnUnackedData ∧ (pcb.state = .established ∨ pcb.state = .closeWait) ∧
        (pcb.refusedData ∨ pcb.rcvWnd ≠ L.tcpWnd) then
      if pcb.rxClosed then s.closeReset L b pcb else none
    else s.closeSwitch L b pcb sendFin

/-- `tcp_close` -/
def tcpClose (b : Block) (sendFin : Err) (s : Stack) : Option (Stack × Err) :=
  (s.heap b).bind fun pcb =>
    (if pcb.state ≠ .listen then s.setPcb b { pcb with rxClosed := true } else s).tcpCloseShutdown L b true sendFin

/-- `tcp_shutdown` -/
def tcpShutdown (b : Block) (shutRx shutTx : Bool) (sendFin : Err) (s : Stack) : Option (Stack × Err) :=
  (s.heap b).bind fun pcb =>
    if pcb.state = .listen then some (s, .conn)
    else if shutRx then
      if shutTx then (s.setPcb b { pcb with rxClosed := true }).tcpCloseShutdown L b true sendFin
      else some (s.setPcb b { pcb with rxClosed := true, refusedData := false }, .ok)
    else if shutTx then
      if pcb.state = .synRcvd ∨ pcb.state = .established ∨ pcb.state = .closeWait then
        s.tcpCloseShutdown L b shutRx sendFin
      else some (s, .conn)
    else some (s, .ok)

/-- `tcp_abandon` -/
def tcpAbandon (b : Block) (s : Stack) : Option Stack :=
  (s.heap b).bind fun pcb =>
    if pcb.state = .listen then none
    else if pcb.state = .timeWait then (s.tcpPcbRemove L .timeWait b).bind (·.free b)
    else (s.tcpPcbRemove L .active b).bind (·.free b)

/-- `tcp_abort` -/
def tcpAbort (b : Block) (s : Stack) : Option Stack := s.tcpAbandon L b

/-! ## Allocation -/

/-- The time since the last activity of a block. -/
def age (ticks : BitVec 32) (pcb : TcpPcb) : BitVec 32 := ticks - pcb.tmr

/-- One pass of the loop of `tcp_kill_timewait`: `inactivity` and `inactive`. -/
def killTimewaitStep (s : Stack) (r : BitVec 32 × Option Block) (c : Block) : BitVec 32 × Option Block :=
  match s.heap c with
  | some pcb => if r.1.toNat ≤ (age s.tcpTicks pcb).toNat then (age s.tcpTicks pcb, some c) else r
  | none => r

/-- `tcp_kill_timewait` -/
def tcpKillTimewait (s : Stack) : Option Stack :=
  match ((s.list .timeWait).foldl (killTimewaitStep s) (0, none)).2 with
  | some inactive => s.tcpAbort L inactive
  | none => some s

/-- `TCP_PRIO_MAX` -/
def tcpPrioMax : BitVec 8 := 127

/-- The local variables of `tcp_kill_prio`. -/
structure Victim where
  mprio : BitVec 8
  inactivity : BitVec 32
  inactive : Option Block

/-- One pass of the loop of `tcp_kill_prio`. -/
def killPrioStep (prio : BitVec 8) (s : Stack) (r : Victim) (c : Block) : Victim :=
  match s.heap c with
  | some pcb =>
    if pcb.prio.toNat ≤ prio.toNat ∧ pcb.prio.toNat ≤ r.mprio.toNat ∧
        r.inactivity.toNat ≤ (age s.tcpTicks pcb).toNat then
      ⟨pcb.prio, age s.tcpTicks pcb, some c⟩
    else r
  | none => r

/-- `tcp_kill_prio` -/
def tcpKillPrio (prio : BitVec 8) (s : Stack) : Option Stack :=
  match ((s.list .active).foldl (killPrioStep prio s) ⟨tcpPrioMax, 0, none⟩).inactive with
  | some inactive => s.tcpAbort L inactive
  | none => some s

/-- The block as `tcp_alloc` leaves it. -/
def newPcb (prio : BitVec 8) (s : Stack) : TcpPcb where
  state := .closed
  prio := prio
  callbackArg := 0
  accept := .null
  localIp := 0
  localPort := 0
  remoteIp := 0
  remotePort := 0
  keepalive := false
  rxClosed := false
  polltmr := 0
  pollinterval := 0
  lastTimer := s.tcpTimerCtr
  tmr := s.tcpTicks
  rcvWnd := L.tcpWnd
  refusedData := false
  keepIdle := L.tcpKeepidleDefault
  tx := { Transmission.zero with
    mss := initialMss L, rto := BitVec.ofNat 16 (3000 / L.tcpSlowInterval)
    sv := BitVec.ofNat 16 (3000 / L.tcpSlowInterval), rtime := -1, cwnd := 1 }

/-- `tcp_alloc` -/
def tcpAlloc (prio : BitVec 8) (s : Stack) : Option (Stack × Option Block) :=
  match s.malloc L .tcpPcb with
  | some pcb => some (s.setPcb pcb (s.newPcb L prio), some pcb)
  | none =>
    (s.tcpKillTimewait L).bind fun s =>
      match s.malloc L .tcpPcb with
      | some pcb => some (s.setPcb pcb (s.newPcb L prio), some pcb)
      | none =>
        (s.tcpKillPrio L prio).map fun s =>
          match s.malloc L .tcpPcb with
          | some pcb => (s.setPcb pcb (s.newPcb L prio), some pcb)
          | none => (s, none)

/-! ## The slow timer -/

def tcpBackoffTable : List ℕ := [1, 2, 3, 4, 5, 6, 7, 7, 7, 7, 7, 7, 7]

def tcpPersistBackoffTable : List ℕ := [3, 6, 12, 24, 48, 96, 120]

/-- `tcp_backoff[nrtx]` -/
def tcpBackoff (nrtx : BitVec 8) : ℕ := tcpBackoffTable[nrtx.toNat]?.getD (L.beyond nrtx.toNat)

/-- `tcp_persist_backoff[persist_backoff-1]` -/
def tcpPersistBackoff (persistBackoff : BitVec 8) : ℕ :=
  tcpPersistBackoffTable[persistBackoff.toNat - 1]?.getD (L.beyond (persistBackoff.toNat - 1))

/-- The persist timer, which probes a window of zero. -/
def persistTimer (b : Block) (pcb : TcpPcb) : TcpPcb :=
  let cnt := pcb.tx.persistCnt + 1
  if tcpPersistBackoff L pcb.tx.persistBackoff ≤ cnt.toNat then
    let backoff :=
      if pcb.tx.persistBackoff.toNat < tcpPersistBackoffTable.length then pcb.tx.persistBackoff + 1
      else pcb.tx.persistBackoff
    { pcb with
      tx := L.tcpZeroWindowProbe b { pcb with tx := { pcb.tx with persistCnt := 0, persistBackoff := backoff } } }
  else { pcb with tx := { pcb.tx with persistCnt := cnt } }

/-- Half the effective window, but at least two segments. -/
def halfWindow (tx : Transmission) : BitVec 16 :=
  let effWnd := if tx.cwnd.toNat < tx.sndWnd.toNat then tx.cwnd else tx.sndWnd
  if (effWnd >>> 1).toNat < tx.mss.toNat * 2 then tx.mss <<< 1 else effWnd >>> 1

/-- What is set before a retransmission. -/
def backedOff (pcb : TcpPcb) : TcpPcb :=
  { pcb with
    tx := { pcb.tx with
      rto :=
        if pcb.state ≠ .synSent then (pcb.tx.sa.sshiftRight 3 + pcb.tx.sv) <<< tcpBackoff L pcb.tx.nrtx
        else pcb.tx.rto
      rtime := 0, ssthresh := halfWindow pcb.tx, cwnd := pcb.tx.mss } }

/-- The retransmission timer. -/
def retransmissionTimer (b : Block) (pcb : TcpPcb) : TcpPcb :=
  let rtime := if 0 ≤ pcb.tx.rtime.toInt then pcb.tx.rtime + 1 else pcb.tx.rtime
  let pcb := { pcb with tx := { pcb.tx with rtime := rtime } }
  if pcb.tx.unacked ∧ pcb.tx.rto.toInt ≤ pcb.tx.rtime.toInt then { pcb with tx := L.tcpRexmitRto b (backedOff L pcb) }
  else pcb

/-- Retransmissions: whether the most have been made, or the block after the timer. -/
def retransmit (b : Block) (pcb : TcpPcb) : TcpPcb × Bool :=
  if pcb.state = .synSent ∧ pcb.tx.nrtx = L.tcpSynmaxrtx then (pcb, true)
  else if pcb.tx.nrtx = L.tcpMaxrtx then (pcb, true)
  else if 0 < pcb.tx.persistBackoff.toNat then (persistTimer L b pcb, false)
  else (retransmissionTimer L b pcb, false)

/-- More than `timeout` milliseconds without activity. -/
def exceeds (ticks : BitVec 32) (timeout : ℕ) (pcb : TcpPcb) : Bool :=
  decide (timeout / L.tcpSlowInterval < (age ticks pcb).toNat)

/-- Keepalive: whether the other side is gone, or the block after a probe. -/
def keepaliveTimer (ticks : BitVec 32) (b : Block) (pcb : TcpPcb) : TcpPcb × Bool :=
  if pcb.keepalive ∧ (pcb.state = .established ∨ pcb.state = .closeWait) then
    if exceeds L ticks (pcb.keepIdle + L.tcpMaxidle).toNat pcb then (pcb, true)
    else if exceeds L ticks (pcb.keepIdle + pcb.tx.keepCntSent.setWidth 32 * L.tcpKeepintvlDefault).toNat pcb then
      let probed := { pcb with tx := L.tcpKeepalive b pcb }
      ({ probed with tx := { probed.tx with keepCntSent := probed.tx.keepCntSent + 1 } }, false)
    else (pcb, false)
  else (pcb, false)

/-- Out of sequence data that is too old is dropped. -/
def ooseqTimer (ticks : BitVec 32) (pcb : TcpPcb) : TcpPcb :=
  if pcb.tx.ooseq ∧ (pcb.tx.rto.signExtend 32 * L.tcpOoseqTimeout).toNat ≤ (age ticks pcb).toNat then
    { pcb with tx := { pcb.tx with ooseq := false } }
  else pcb

/-- The timers of an active block: the block after them, and `pcb_remove`. -/
def timers (ticks : BitVec 32) (b : Block) (pcb : TcpPcb) : TcpPcb × Bool :=
  let sent := retransmit L b pcb
  let kept := keepaliveTimer L ticks b sent.1
  let pcb := ooseqTimer L ticks kept.1
  (pcb, sent.2 ||
    (pcb.state = .finWait2 ∧ pcb.rxClosed ∧ exceeds L ticks L.tcpFinWaitTimeout pcb) || kept.2 ||
    (pcb.state = .synRcvd ∧ exceeds L ticks L.tcpSynRcvdTimeout pcb) ||
    (pcb.state = .lastAck ∧ exceeds L ticks (2 * L.tcpMsl) pcb))

/-- The poll timer of a block that stays; there is no callback to poll, so what is queued is sent. -/
def pollTimer (b : Block) (pcb : TcpPcb) : TcpPcb :=
  let polltmr := pcb.polltmr + 1
  if pcb.pollinterval.toNat ≤ polltmr.toNat then
    { pcb with polltmr := 0, tx := L.tcpOutput b { pcb with polltmr := 0 } }
  else { pcb with polltmr := polltmr }

/-- What the first loop makes of a block. -/
def activeTimer (ticks : BitVec 32) (ctr : BitVec 8) (b : Block) (pcb : TcpPcb) : Outcome TcpPcb :=
  if pcb.state = .closed ∨ pcb.state = .listen ∨ pcb.state = .timeWait then .fails
  else if pcb.lastTimer = ctr then .skips
  else
    let r := timers L ticks b { pcb with lastTimer := ctr }
    if r.2 then .drops else .keeps (pollTimer L b r.1)

/-- What the second loop makes of a block. -/
def timeWaitTimer (ticks : BitVec 32) (_ : Block) (pcb : TcpPcb) : Outcome TcpPcb :=
  if pcb.state ≠ .timeWait then .fails
  else if exceeds L ticks (2 * L.tcpMsl) pcb then .drops
  else .keeps pcb

/-- `tcp_slowtmr` -/
def tcpSlowtmr (s : Stack) : Option Stack :=
  let s := { s with tcpTicks := s.tcpTicks + 1, tcpTimerCtr := s.tcpTimerCtr + 1 }
  (s.toLists.walk .active (activeTimer L s.tcpTicks s.tcpTimerCtr)).bind fun lists =>
    (lists.walk .timeWait (timeWaitTimer L s.tcpTicks)).map fun lists => { s with toLists := lists }

/-! ## Fields -/

/-- `tcp_arg` -/
def tcpArg (b : Block) (arg : ℕ) (s : Stack) : Option Stack :=
  (s.heap b).map fun pcb => s.setPcb b { pcb with callbackArg := arg }

/-- `tcp_accept` -/
def tcpAccept (b : Block) (accept : Accept) (s : Stack) : Option Stack :=
  (s.heap b).map fun pcb => s.setPcb b { pcb with accept := accept }

/-- `TCP_PRIO_NORMAL` -/
def tcpPrioNormal : BitVec 8 := 64

/-- `tcp_new` -/
def tcpNew (s : Stack) : Option (Stack × Option Block) := s.tcpAlloc L tcpPrioNormal

end Stack

end Tcp

end SuspiciousPackage
