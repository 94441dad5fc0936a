import Mathlib.Data.List.FinRange
import SuspiciousPackage.Sync.Run

/-!
# Status.DemoRun — the state machine of the status server in `main.cc`

`pass` is one pass of the loop of `DemoRun`, from the answers of the WiFi/TCP library, the detector and the GPS in this
pass.  A pass may halt the machine: a NULL pointer is dereferenced, or the wait for the GPS does not end.  `calls` records
the calls on the sockets with the pool of the server at the call.

The numbers of the report are written through `tmp`, which is never assigned, so no report of an alarm is ever finished
(`report_eq`).  `tcpServer.close` in `EXIT` has no counterpart, since `EXIT` is never entered.
-/

namespace SuspiciousPackage

open Sync

namespace DemoRun

/-- `STATE` -/
inductive State
  | none
  | connect
  | listen
  | isListening
  | waitIsListening
  | availableClient
  | acceptClient
  | read
  | write
  | close
  | exit
  | done
deriving DecidableEq, Repr

def cTcpClients : ℕ := 2

/-- A socket of `rgTcpClient`, by its index; `none` is the pointer NULL. -/
abbrev Socket := Fin cTcpClients

/-- `rgTcpClient` in the order in which the sockets are added. -/
def rgTcpClient : List Socket := List.finRange cTcpClients

/-- What is called in one pass, and what it returns. -/
structure In where
  /-- `check_suspicion_alert` -/
  alert : Bool
  /-- `WiFiConnectMacro` -/
  wfConnect : Bool
  /-- `IsIPStatusAnError(status)` -/
  isIPStatusAnError : Bool
  tcpStartListening : Bool
  isListening : ℤ
  availableClients : ℤ
  /-- The socket that the server picks; unless it is in the pool, `acceptClient` returns NULL. -/
  acceptClient : Option Socket
  isConnected : Bool
  /-- `GPS.ping` comes up after `GPS_getData`. -/
  gpsPing : Bool
  gpsIsFixed : Bool
  gpsNumSats : ℤ
deriving DecidableEq, Repr

/-- A call on a socket. -/
inductive Op
  | isConnected
  | writeStream (rgb : String) (cb : ℕ)
  | close
  | addSocket
deriving DecidableEq, Repr

structure Call where
  op : Op
  socket : Socket
  /-- The sockets in the pool of the server at the call. -/
  pool : List Socket
deriving DecidableEq, Repr

/-- Why a pass does not end: `ptcpClient` is NULL, `GPS.ping` does not come up, or `tmp` is NULL. -/
inductive Halt
  | nullPointer
  | gpsPing
  | tmp
deriving DecidableEq, Repr

/-- The variables of the machine and the pool of `tcpServer`. -/
structure Demo where
  state : State
  count : ℤ
  ptcpClient : Option Socket
  rgbRead : String
  pool : List Socket
  calls : List Call
deriving DecidableEq, Repr

/-- `state = CONNECT`, `ptcpClient = NULL` and an empty server. -/
def start : Demo where
  state := .connect
  count := 0
  ptcpClient := none
  rgbRead := ""
  pool := []
  calls := []

/-- What `char * tmp` points to: nothing, as it is never assigned. -/
def tmp : Option String := none

/-- `itoa(n, tmp, 10)`: the text that is then in `tmp`. -/
def itoa (n : ℤ) : Option String → Except Halt String
  | some _ => .ok (toString n)
  | none => .error .tmp

/-- The report of `WRITE`. -/
def report (i : In) : Except Halt String :=
  if i.alert then
    if i.gpsPing then
      if i.gpsIsFixed then
        (itoa 100 tmp).bind fun n =>
          (itoa i.gpsNumSats tmp).map fun sats =>
            "Suspicious Object Detected!\n" ++ "Latitude: " ++ n ++ "\n" ++ "Longitude: " ++ n ++ "\n" ++
              "Altitude: " ++ n ++ "\n" ++ "Number of Satellites: " ++ sats
      else
        (itoa i.gpsNumSats tmp).map fun sats =>
          "Suspicious Object Detected!\n" ++ "Number of Satellites: " ++ sats
    else .error .gpsPing
  else .ok "Nothing to Report..."

/-- **No alarm is reported**: with the alarm up the report is never finished. -/
theorem report_eq (i : In) : report i =
    if i.alert then .error (if i.gpsPing then .tmp else .gpsPing) else .ok "Nothing to Report..." := by
  unfold report
  split_ifs <;> rfl

namespace Demo

/-- A call on a socket, recorded. -/
def call (op : Op) (k : Socket) (s : Demo) : Demo := { s with calls := s.calls ++ [⟨op, k, s.pool⟩] }

def addSocket (s : Demo) (k : Socket) : Demo := { s.call .addSocket k with pool := s.pool ++ [k] }

/-- `ptcpClient = tcpServer.acceptClient()`: the socket returned leaves the pool. -/
def accept (choice : Option Socket) (s : Demo) : Demo :=
  match choice with
  | some k =>
    if k ∈ s.pool then { s with ptcpClient := some k, pool := s.pool.erase k } else { s with ptcpClient := none }
  | none => { s with ptcpClient := none }

/-- `*ptcpClient` -/
def deref (s : Demo) : Except Halt Socket :=
  match s.ptcpClient with
  | some k => .ok k
  | none => .error .nullPointer

/-! The cases of the `switch`. -/

def connect (i : In) (s : Demo) : Demo :=
  if i.wfConnect then { s with state := .listen }
  else if i.isIPStatusAnError then { s with state := .close }
  else s

def listen (i : In) (s : Demo) : Demo :=
  { (if i.tcpStartListening then rgTcpClient.foldl addSocket s else s) with state := .isListening }

def isListening (i : In) (s : Demo) : Demo :=
  if 0 < i.isListening then { s with count := i.isListening, state := .availableClient }
  else { s with count := i.isListening, state := .waitIsListening }

def waitIsListening (i : In) (s : Demo) : Demo :=
  if 0 < i.isListening then { s with state := .isListening } else s

def availableClient (i : In) (s : Demo) : Demo :=
  if 0 < i.availableClients then { s with count := i.availableClients, state := .acceptClient }
  else { s with count := i.availableClients }

def acceptClient (i : In) (s : Demo) : Demo :=
  let s := s.accept i.acceptClient
  match s.ptcpClient with
  | some k => { s.call .isConnected k with state := if i.isConnected then .write else .close }
  | none => { s with state := .close }

def write (i : In) (s : Demo) : Except Halt Demo :=
  s.deref.bind fun k =>
    if i.isConnected then
      (report i).map fun text =>
        { ({ s.call .isConnected k with rgbRead := text }).call (.writeStream text text.length) k with
          state := .close }
    else .ok { s.call .isConnected k with state := .close }

/-- Only the first statement is under the `if (ptcpClient)`. -/
def close (s : Demo) : Except Halt Demo :=
  let s' := match s.ptcpClient with
    | some k => s.call .close k
    | none => s
  s.deref.map fun k => { s'.addSocket k with state := .isListening }

end Demo

/-- One pass of the loop. -/
def pass (i : In) (s : Demo) : Except Halt Demo :=
  match s.state with
  | .connect => .ok (s.connect i)
  | .listen => .ok (s.listen i)
  | .isListening => .ok (s.isListening i)
  | .waitIsListening => .ok (s.waitIsListening i)
  | .availableClient => .ok (s.availableClient i)
  | .acceptClient => .ok (s.acceptClient i)
  | .write => s.write i
  | .close => s.close
  | .exit => .ok { s with state := .done }
  | .none | .read | .done => .ok s

/-- The machine before pass `t`. -/
def demoRun (ins : ℕ → In) : ℕ → Except Halt Demo := haltRun pass start ins

/-! ## What a pass can do -/

section Next

/-- The sockets are left alone. -/
structure Same (s s' : Demo) : Prop where
  pool : s'.pool = s.pool
  ptcpClient : s'.ptcpClient = s.ptcpClient
  calls : s'.calls = s.calls

/-- The new calls are on socket `k`, with `pool` in the pool. -/
def Acts (k : Socket) (pool : List Socket) (s s' : Demo) : Prop :=
  ∀ c ∈ s'.calls, c ∈ s.calls ∨ c.socket = k ∧ c.pool = pool

/-- A pass that comes to its end. -/
inductive Next (i : In) (s s' : Demo) : Prop
  | connects (hs : s.state = .connect) (hs' : s'.state = .connect ∨ s'.state = .listen) (h : Same s s')
  | connectFails (hs : s.state = .connect) (hw : i.wfConnect = false) (he : i.isIPStatusAnError = true)
      (hs' : s'.state = .close) (h : Same s s')
  | listens (hs : s.state = .listen) (hi : i.tcpStartListening = true) (hs' : s'.state = .isListening)
      (h : Same (rgTcpClient.foldl Demo.addSocket s) s')
  | listenFails (hs : s.state = .listen) (hi : i.tcpStartListening = false) (hs' : s'.state = .isListening)
      (h : Same s s')
  | polls (hs : s.state = .isListening ∨ s.state = .waitIsListening ∨ s.state = .availableClient)
      (hs' : s'.state = .isListening ∨ s'.state = .waitIsListening ∨ s'.state = .availableClient ∨
        s'.state = .acceptClient) (h : Same s s')
  | accepts (k : Socket) (hs : s.state = .acceptClient) (hk : k ∈ s.pool) (hi : i.acceptClient = some k)
      (hs' : s'.state = .write ∨ s'.state = .close) (hp : s'.ptcpClient = some k) (hpool : s'.pool = s.pool.erase k)
      (h : Acts k (s.pool.erase k) s s')
  | acceptFails (hs : s.state = .acceptClient) (hi : ∀ k ∈ s.pool, i.acceptClient ≠ some k) (hs' : s'.state = .close)
      (hp : s'.ptcpClient = none) (hpool : s'.pool = s.pool) (h : s'.calls = s.calls)
  | writes (k : Socket) (hs : s.state = .write) (hp : s.ptcpClient = some k) (hs' : s'.state = .close)
      (hp' : s'.ptcpClient = some k) (hpool : s'.pool = s.pool) (h : Acts k s.pool s s')
  | closes (k : Socket) (hs : s.state = .close) (hp : s.ptcpClient = some k) (hs' : s'.state = .isListening)
      (hpool : s'.pool = s.pool ++ [k]) (h : Acts k s.pool s s')
  | stops (hs : s.state = .none ∨ s.state = .read ∨ s.state = .exit ∨ s.state = .done)
      (hs' : s'.state = .none ∨ s'.state = .read ∨ s'.state = .done) (h : Same s s')

variable {i : In} {s s' : Demo} {k : Socket}

theorem acts_call (op : Op) : Acts k s.pool s (s.call op k) := by
  intro c hc
  rcases List.mem_append.mp hc with hc | hc
  · exact Or.inl hc
  · rw [List.mem_singleton.mp hc]
    exact Or.inr ⟨rfl, rfl⟩

theorem Acts.trans {t : Demo} {pool : List Socket} (h : Acts k pool s t) (h' : Acts k pool t s') : Acts k pool s s' := by
  intro c hc
  rcases h' c hc with hc | hc
  · exact h c hc
  · exact Or.inr hc

theorem deref_eq_ok (h : s.deref = .ok k) : s.ptcpClient = some k := by
  unfold Demo.deref at h
  split at h
  · next hp => cases h; exact hp
  · cases h

theorem deref_eq_error {e : Halt} (h : s.deref = .error e) : s.ptcpClient = none := by
  unfold Demo.deref at h
  split at h
  · cases h
  · next hp => exact hp

theorem deref_of_null (h : s.ptcpClient = none) : s.deref = .error .nullPointer := by
  unfold Demo.deref
  rw [h]

theorem next_connect (hs : s.state = .connect) : Next i s (s.connect i) := by
  unfold Demo.connect
  split_ifs with hw he
  · exact .connects hs (Or.inr rfl) ⟨rfl, rfl, rfl⟩
  · exact .connectFails hs (Bool.eq_false_of_not_eq_true hw) he rfl ⟨rfl, rfl, rfl⟩
  · exact .connects hs (Or.inl hs) ⟨rfl, rfl, rfl⟩

theorem next_listen (hs : s.state = .listen) : Next i s (s.listen i) := by
  unfold Demo.listen
  split_ifs with hi
  · exact .listens hs hi rfl ⟨rfl, rfl, rfl⟩
  · exact .listenFails hs (Bool.eq_false_of_not_eq_true hi) rfl ⟨rfl, rfl, rfl⟩

theorem next_isListening (hs : s.state = .isListening) : Next i s (s.isListening i) := by
  unfold Demo.isListening
  split_ifs
  · exact .polls (Or.inl hs) (Or.inr (Or.inr (Or.inl rfl))) ⟨rfl, rfl, rfl⟩
  · exact .polls (Or.inl hs) (Or.inr (Or.inl rfl)) ⟨rfl, rfl, rfl⟩

theorem next_waitIsListening (hs : s.state = .waitIsListening) : Next i s (s.waitIsListening i) := by
  unfold Demo.waitIsListening
  split_ifs
  · exact .polls (Or.inr (Or.inl hs)) (Or.inl rfl) ⟨rfl, rfl, rfl⟩
  · exact .polls (Or.inr (Or.inl hs)) (Or.inr (Or.inl hs)) ⟨rfl, rfl, rfl⟩

theorem next_availableClient (hs : s.state = .availableClient) : Next i s (s.availableClient i) := by
  unfold Demo.availableClient
  split_ifs
  · exact .polls (Or.inr (Or.inr hs)) (Or.inr (Or.inr (Or.inr rfl))) ⟨rfl, rfl, rfl⟩
  · exact .polls (Or.inr (Or.inr hs)) (Or.inr (Or.inr (Or.inl hs))) ⟨rfl, rfl, rfl⟩

theorem next_acceptClient (hs : s.state = .acceptClient) : Next i s (s.acceptClient i) := by
  have hfails : (∀ k ∈ s.pool, i.acceptClient ≠ some k) → s.accept i.acceptClient = { s with ptcpClient := none } →
      Next i s (s.acceptClient i) := by
    intro hi hacc
    unfold Demo.acceptClient
    rw [hacc]
    exact .acceptFails hs hi rfl rfl rfl rfl
  cases hi : i.acceptClient with
  | none => exact hfails (fun k _ h => by rw [hi] at h; cases h) (by rw [hi]; rfl)
  | some k =>
    by_cases hk : k ∈ s.pool
    · have hacc : s.accept i.acceptClient = { s with ptcpClient := some k, pool := s.pool.erase k } := by
        rw [hi]
        exact if_pos hk
      unfold Demo.acceptClient
      rw [hacc]
      refine .accepts k hs hk hi ?_ rfl rfl (acts_call .isConnected)
      cases i.isConnected
      · exact Or.inr rfl
      · exact Or.inl rfl
    · refine hfails (fun k' hk' h => ?_) (by rw [hi]; exact if_neg hk)
      rw [hi] at h
      cases h
      exact hk hk'

theorem next_write (hs : s.state = .write) (h : s.write i = .ok s') : Next i s s' := by
  unfold Demo.write at h
  cases hd : s.deref with
  | error e =>
    rw [hd] at h
    cases h
  | ok k =>
    have hp := deref_eq_ok hd
    rw [hd, Except.bind] at h
    split_ifs at h with hc
    · cases hr : report i with
      | error e =>
        rw [hr] at h
        cases h
      | ok text =>
        rw [hr] at h
        cases h
        exact .writes k hs hp rfl hp rfl ((acts_call .isConnected).trans (acts_call (.writeStream _ _)))
    · cases h
      exact .writes k hs hp rfl hp rfl (acts_call .isConnected)

theorem next_close (hs : s.state = .close) (h : s.close = .ok s') : Next i s s' := by
  unfold Demo.close at h
  cases hd : s.deref with
  | error e =>
    rw [hd] at h
    cases h
  | ok k =>
    have hp := deref_eq_ok hd
    rw [hd, hp] at h
    cases h
    exact .closes k hs hp rfl rfl ((acts_call .close).trans (acts_call .addSocket))

/-- **What a pass can do**, when it comes to its end. -/
theorem next_of_pass (h : pass i s = .ok s') : Next i s s' := by
  unfold pass at h
  cases hs : s.state <;> rw [hs] at h
  case connect => cases h; exact next_connect hs
  case listen => cases h; exact next_listen hs
  case isListening => cases h; exact next_isListening hs
  case waitIsListening => cases h; exact next_waitIsListening hs
  case availableClient => cases h; exact next_availableClient hs
  case acceptClient => cases h; exact next_acceptClient hs
  case write => exact next_write hs h
  case close => exact next_close hs h
  case exit => cases h; exact .stops (Or.inr (Or.inr (Or.inl hs))) (Or.inr (Or.inr rfl)) ⟨rfl, rfl, rfl⟩
  case none => cases h; exact .stops (Or.inl hs) (Or.inl hs) ⟨rfl, rfl, rfl⟩
  case read => cases h; exact .stops (Or.inr (Or.inl hs)) (Or.inr (Or.inl hs)) ⟨rfl, rfl, rfl⟩
  case done => cases h; exact .stops (Or.inr (Or.inr (Or.inr hs))) (Or.inr (Or.inr hs)) ⟨rfl, rfl, rfl⟩

theorem write_nullPointer (h : s.write i = .error .nullPointer) : s.ptcpClient = none := by
  unfold Demo.write at h
  cases hd : s.deref with
  | error e => exact deref_eq_error hd
  | ok k =>
    rw [hd, Except.bind, report_eq] at h
    split_ifs at h <;> cases h

theorem close_nullPointer (h : s.close = .error .nullPointer) : s.ptcpClient = none := by
  unfold Demo.close at h
  cases hd : s.deref with
  | error e => exact deref_eq_error hd
  | ok k =>
    rw [hd] at h
    cases h

/-- **When a pass dereferences NULL**: in `WRITE` and in `CLOSE`, without a client. -/
theorem pass_eq_nullPointer : pass i s = .error .nullPointer ↔
    (s.state = .write ∨ s.state = .close) ∧ s.ptcpClient = none := by
  constructor
  · intro h
    unfold pass at h
    cases hs : s.state <;> rw [hs] at h
    case write => exact ⟨Or.inl rfl, write_nullPointer h⟩
    case close => exact ⟨Or.inr rfl, close_nullPointer h⟩
    all_goals cases h
  · rintro ⟨hs | hs, hp⟩ <;> unfold pass <;> rw [hs]
    · show s.write i = _
      unfold Demo.write
      rw [deref_of_null hp]
      rfl
    · show s.close = _
      unfold Demo.close
      rw [deref_of_null hp]
      rfl

end Next

end DemoRun

end SuspiciousPackage
