import SuspiciousPackage.Broadcast.Send
import SuspiciousPackage.Loop.While

/-!
# Broadcast.RecvCallback — the send loop of `recv_callback`

After the read-out the callback hands `frame_buf` to the TCP stack in steps of `10000` bytes.  The step does not depend
on what the stack answers, and the loop runs to `200000`, not to `FRAME_BUF_SIZE`: pass `k` hands over the range from
`10000 * k` unless the send buffer is full, and its bytes are enqueued when `tcp_write` succeeds.  So what is enqueued
is made of whole steps (`length_enqueued`), which `FRAME_BUF_SIZE` is not, and the passes from the sixteenth on reach
behind the buffer (`inside_iff`).
-/

namespace SuspiciousPackage

/-- `ERR_OK` of lwIP. -/
def errOk : Int := 0

/-- The answers of the TCP stack: `tcp_sndbuf` and `tcp_write` in pass `k` of the loop. -/
structure TcpAnswers where
  tcpSndbuf : ℕ → ℕ
  tcpWrite : ℕ → Int

/-- The `len` bytes from `frame_buf + offset`, also where they lie behind the buffer. -/
def FrameBuf.range (frameBuf : FrameBuf) (offset len : ℕ) : List (BitVec 8) :=
  (List.range len).map fun j => frameBuf (offset + j)

/-- The local variables of the loop, the ranges (offset and length) handed to `tcp_write`, the bytes it enqueued, the
lines printed and the number of passes made. -/
structure Sending where
  bytesSent : ℕ
  err : Int
  handed : List (ℕ × ℕ)
  enqueued : List (BitVec 8)
  printed : List String
  pass : ℕ

section SendLoop

variable (frameBuf : FrameBuf) (tcp : TcpAnswers)

namespace Sending

/-- Before the loop: `err` is the parameter of the callback. -/
def start (err : Int) : Sending := ⟨0, err, [], [], [], 0⟩

/-- `err = tcp_write(tpcb, frame_buf+bytes_sent, 10000, 1)`: success enqueues the bytes passed, failure none. -/
def write (s : Sending) : Sending :=
  let err := tcp.tcpWrite s.pass
  { s with
    err := err
    handed := s.handed ++ [(s.bytesSent, 10000)]
    enqueued := if err = errOk then s.enqueued ++ frameBuf.range s.bytesSent 10000 else s.enqueued }

def noSpace (s : Sending) : Sending := { s with printed := s.printed ++ ["no space in tcp_sndbuf\n\r"] }

/-- One pass of the loop. -/
def next (s : Sending) : Sending :=
  let s' := if tcp.tcpSndbuf s.pass ≠ 0 then s.write frameBuf tcp else s.noSpace
  { s' with bytesSent := (s.bytesSent + 10000) % 2 ^ 32, pass := s.pass + 1 }

theorem next_bytesSent (s : Sending) : (s.next frameBuf tcp).bytesSent = (s.bytesSent + 10000) % 2 ^ 32 := rfl

end Sending

/-- The loop; `bytes_sent` cannot wrap around below its bound. -/
def sendLoop : Loop.While Sending where
  test s := s.bytesSent < 200000
  body s := some (s.next frameBuf tcp)
  variant s := 200000 - s.bytesSent
  down := by
    intro s s' ht hb
    obtain rfl : s.next frameBuf tcp = s' := Option.some.inj hb
    have hlt : s.bytesSent < 200000 := of_decide_eq_true ht
    rw [Sending.next_bytesSent]
    omega

end SendLoop

/-- What `recv_callback` returns and what it leaves behind. -/
structure Callback where
  ret : Int
  frameBuf : FrameBuf
  sent : Sending

/-- The callback; `none` stands for a loop that does not end. -/
def recvCallback (signed : Bool) (read : ℕ → BitVec 32) (frameBuf : FrameBuf) (tcp : TcpAnswers) (err : Int) :
    Option Callback :=
  let frameBuf := readOut signed read frameBuf
  ((sendLoop frameBuf tcp).run (Sending.start err)).map fun s => ⟨errOk, frameBuf, s⟩

/-! ## What the loop hands over -/

section Sent

variable {frameBuf : FrameBuf} {tcp : TcpAnswers}

/-- The passes among the first `k` in which the send buffer has room. -/
def roomy (tcp : TcpAnswers) (k : ℕ) : List ℕ := (List.range k).filter fun j => tcp.tcpSndbuf j ≠ 0

/-- Those in which `tcp_write` succeeds, too. -/
def written (tcp : TcpAnswers) (k : ℕ) : List ℕ := (roomy tcp k).filter fun j => tcp.tcpWrite j = errOk

theorem roomy_succ (k : ℕ) :
    roomy tcp (k + 1) = roomy tcp k ++ if tcp.tcpSndbuf k ≠ 0 then [k] else [] := by
  unfold roomy
  rw [List.range_succ, List.filter_append]
  by_cases hs : tcp.tcpSndbuf k = 0 <;> simp [hs]

theorem written_succ (k : ℕ) :
    written tcp (k + 1) =
      written tcp k ++ if tcp.tcpSndbuf k ≠ 0 ∧ tcp.tcpWrite k = errOk then [k] else [] := by
  unfold written
  rw [roomy_succ, List.filter_append]
  by_cases hs : tcp.tcpSndbuf k = 0
  · simp [hs]
  · by_cases hw : tcp.tcpWrite k = errOk <;> simp [hs, hw]

theorem mem_roomy {k j : ℕ} : j ∈ roomy tcp k ↔ j < k ∧ tcp.tcpSndbuf j ≠ 0 := by
  simp [roomy]

/-- The state after `k` passes. -/
structure SentIn (frameBuf : FrameBuf) (tcp : TcpAnswers) (k : ℕ) (s : Sending) : Prop where
  bytesSent : s.bytesSent = 10000 * k
  pass : s.pass = k
  handed : s.handed = (roomy tcp k).map fun j => (10000 * j, 10000)
  enqueued : s.enqueued = (written tcp k).flatMap fun j => frameBuf.range (10000 * j) 10000

theorem sentIn_start (err : Int) : SentIn frameBuf tcp 0 (Sending.start err) := ⟨rfl, rfl, rfl, rfl⟩

/-- One pass, whatever the stack answers. -/
theorem SentIn.next {k : ℕ} {s : Sending} (h : SentIn frameBuf tcp k s) (hk : k < 20) :
    SentIn frameBuf tcp (k + 1) (s.next frameBuf tcp) := by
  have hsent := h.bytesSent
  have hstep : (s.next frameBuf tcp).bytesSent = 10000 * (k + 1) := by
    rw [Sending.next_bytesSent]
    omega
  refine ⟨hstep, congrArg (· + 1) h.pass, ?_, ?_⟩
  · rw [roomy_succ, List.map_append, ← h.handed]
    unfold Sending.next
    rw [h.pass]
    by_cases hs : tcp.tcpSndbuf k = 0
    · simp [hs, Sending.noSpace]
    · simp [hs, Sending.write, hsent]
  · rw [written_succ, List.flatMap_append, ← h.enqueued]
    unfold Sending.next
    rw [h.pass]
    by_cases hs : tcp.tcpSndbuf k = 0
    · simp [hs, Sending.noSpace]
    · by_cases hw : tcp.tcpWrite k = errOk
      · simp [hs, hw, Sending.write, hsent, h.pass]
      · simp [hs, hw, Sending.write, h.pass]

/-- **The loop**: twenty passes. -/
theorem sendLoop_run (err : Int) :
    ∃ s, (sendLoop frameBuf tcp).run (Sending.start err) = some s ∧ SentIn frameBuf tcp 20 s := by
  refine Loop.While.run_counted (fun k hk s hs => ?_) (fun s hs => ?_) _ (sentIn_start err)
  · have hlt : s.bytesSent < 200000 := by
      rw [hs.bytesSent]
      omega
    exact ⟨decide_eq_true hlt, _, rfl, hs.next hk⟩
  · have hge : ¬ s.bytesSent < 200000 := by
      rw [hs.bytesSent]
      omega
    exact decide_eq_false hge

/-- **The callback** always returns, and always `ERR_OK`. -/
theorem recvCallback_eq (signed : Bool) (read : ℕ → BitVec 32) (frameBuf : FrameBuf) (tcp : TcpAnswers) (err : Int) :
    ∃ r, recvCallback signed read frameBuf tcp err = some r ∧ r.ret = errOk ∧
      r.frameBuf = readOut signed read frameBuf ∧ SentIn r.frameBuf tcp 20 r.sent := by
  unfold recvCallback
  generalize readOut signed read frameBuf = buf
  obtain ⟨s, hrun, hs⟩ : ∃ s, (sendLoop buf tcp).run (Sending.start err) = some s ∧ SentIn buf tcp 20 s :=
    sendLoop_run err
  refine ⟨⟨errOk, buf, s⟩, ?_, rfl, rfl, hs⟩
  show ((sendLoop buf tcp).run (Sending.start err)).map _ = _
  rw [hrun, Option.map_some]

end Sent

/-! ## The frame is not what is sent -/

section Frame

variable {frameBuf : FrameBuf} {tcp : TcpAnswers} {s : Sending}

@[simp] theorem length_range (offset len : ℕ) : (frameBuf.range offset len).length = len := by
  simp [FrameBuf.range]

/-- The ranges lie inside `frame_buf` exactly when the send buffer is full from the sixteenth pass on. -/
theorem inside_iff (h : SentIn frameBuf tcp 20 s) :
    (∀ range ∈ s.handed, range.1 + range.2 ≤ frameBufSize) ↔ ∀ k, 15 ≤ k → k < 20 → tcp.tcpSndbuf k = 0 := by
  have hsize : frameBufSize = 153600 := rfl
  rw [h.handed, List.forall_mem_map]
  constructor
  · intro hin k hk hk'
    by_contra hne
    have hle := hin k (mem_roomy.mpr ⟨hk', hne⟩)
    simp only at hle
    omega
  · intro hfull k hk
    obtain ⟨hk', hne⟩ := mem_roomy.mp hk
    have hlt : k < 15 := by
      by_contra hge
      exact hne (hfull k (by omega) hk')
    show 10000 * k + 10000 ≤ frameBufSize
    omega

/-- The bytes enqueued are whole steps. -/
theorem length_enqueued {k : ℕ} (h : SentIn frameBuf tcp k s) :
    s.enqueued.length = 10000 * (written tcp k).length := by
  rw [h.enqueued, List.length_flatMap]
  simp only [length_range]
  rw [List.map_const', List.sum_replicate_nat, Nat.mul_comm]

theorem enqueued_ne_bytes {k : ℕ} (h : SentIn frameBuf tcp k s) : s.enqueued ≠ frameBuf.bytes := by
  intro heq
  have hlen := length_enqueued h
  have hsize : frameBufSize = 153600 := rfl
  rw [heq, length_bytes, hsize] at hlen
  omega

/-- The frame is sent completely and nothing else is. -/
structure SendsFrame (r : Callback) : Prop where
  inside : ∀ range ∈ r.sent.handed, range.1 + range.2 ≤ frameBufSize
  whole : r.ret = errOk → r.sent.enqueued = r.frameBuf.bytes

/-- **No call sends the frame**, whatever the stack answers: the bytes enqueued never are those of `frame_buf`, and
the ranges stay inside it only when the last five steps find no room. -/
theorem recvCallback_sends_never (signed : Bool) (read : ℕ → BitVec 32) (frameBuf : FrameBuf) (tcp : TcpAnswers)
    (err : Int) :
    ∃ r, recvCallback signed read frameBuf tcp err = some r ∧ ¬ SendsFrame r ∧
      ((∀ range ∈ r.sent.handed, range.1 + range.2 ≤ frameBufSize) ↔
        ∀ k, 15 ≤ k → k < 20 → tcp.tcpSndbuf k = 0) := by
  obtain ⟨r, hrun, hret, -, hsent⟩ := recvCallback_eq signed read frameBuf tcp err
  refine ⟨r, hrun, ?_, inside_iff hsent⟩
  intro hr
  exact enqueued_ne_bytes hsent (hr.whole hret)

/-- All calls succeed: `200000` bytes are enqueued, the last `10000` from behind the buffer. -/
theorem recvCallback_overruns :
    ∃ r, recvCallback true (fun _ => 0) (fun _ => 0) ⟨fun _ => 65535, fun _ => errOk⟩ errOk = some r ∧
      r.ret = errOk ∧ (190000, 10000) ∈ r.sent.handed ∧ r.sent.enqueued.length = 200000 ∧ ¬ SendsFrame r := by
  obtain ⟨r, hrun, hret, -, hsent⟩ :=
    recvCallback_eq true (fun _ => 0) (fun _ => 0) ⟨fun _ => 65535, fun _ => errOk⟩ errOk
  have hwritten : (written ⟨fun _ => 65535, fun _ => errOk⟩ 20).length = 20 := by decide
  have hlast : (190000, 10000) ∈ r.sent.handed := by
    rw [hsent.handed]
    exact List.mem_map.mpr ⟨19, mem_roomy.mpr ⟨by omega, by simp⟩, rfl⟩
  have hlen := length_enqueued hsent
  rw [hwritten] at hlen
  exact ⟨r, hrun, hret, hlast, hlen, fun hr => enqueued_ne_bytes hsent (hr.whole hret)⟩

end Frame

end SuspiciousPackage
