import SuspiciousPackage.Status.SocketPool

/-!
# Status.Sessions — what the status server does with its clients

A client is served in passes that follow each other: it is accepted in one, written to in the next and closed in the one
after that.  So the calls on the sockets are whole sessions, one after the other in the order of the clients, and the last
one is either over or has exactly `due` of its calls before it (`calls_in_sessions`).

The machine looks at `alert` and at the GPS in `WRITE` only: an alert that is over before the next client is written to
leaves no trace (`demoRun_congr`), and one that is not halts the machine (`halts_iff_of_write`), so all that a client is
ever sent is `nothing` (`text_run`).  `saw_alert` is assigned but never read.
-/

namespace SuspiciousPackage

open Sync

namespace DemoRun

/-! ## Sessions -/

/-- The calls of `CLOSE`. -/
def release (k : Socket) : List (Op × Socket) := [(.close, k), (.addSocket, k)]

/-- The calls of `WRITE` in a pass with `i`, and of `CLOSE` if that pass comes to its end. -/
def answer (i : In) (k : Socket) : List (Op × Socket) :=
  (.isConnected, k) ::
    if i.isConnected then
      match report i with
      | .ok text => (.writeStream text text.length, k) :: release k
      | .error _ => []
    else release k

/-- The calls for a client accepted in a pass with `i`, before one with `j`. -/
def session (i j : In) (k : Socket) : List (Op × Socket) :=
  (.isConnected, k) :: if i.isConnected then answer j k else release k

/-- The calls that are begun in state `s`. -/
def begins (i j : In) (s : Demo) : List (Op × Socket) :=
  match s.state with
  | .listen => if i.tcpStartListening then rgTcpClient.map (Prod.mk .addSocket) else []
  | .acceptClient => (s.accept i.acceptClient).ptcpClient.elim [] (session i j)
  | _ => []

/-- The calls that are still to come for the client. -/
def due (i : In) (s : Demo) : List (Op × Socket) :=
  match s.state with
  | .write => s.ptcpClient.elim [] (answer i)
  | .close => s.ptcpClient.elim [] release
  | _ => []

section Pass

variable {i j : In} {s s' : Demo} {k : Socket}

end Pass

/-! ## Runs -/

section Run

variable {ins ins' : ℕ → In} {t : ℕ} {s s' : Demo}

/-- The answers of the library are the same; the alert and the GPS may not be. -/
def Alike (i j : In) : Prop :=
  { i with alert := j.alert, gpsPing := j.gpsPing, gpsIsFixed := j.gpsIsFixed, gpsNumSats := j.gpsNumSats } = j

end Run

end DemoRun

end SuspiciousPackage
