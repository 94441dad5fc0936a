import Mathlib.Data.List.ReduceOption
import SuspiciousPackage.Broadcast.IoTClientFrame
import SuspiciousPackage.Loop.While

/-!
# Broadcast.ReceiveLoop — the receive loop of `IoT_client_frame.py`

The loop counts `sys.getsizeof(frame)` for each `recv`: the bytes received and the size `c` of an empty `bytes` object
besides.  So it is left too early, at the first frame with `counted c frames ≥ IMAGE_SIZE` (`receiveLoop_eq`), and
`num_bytes_received` then exceeds the bytes received.  Whether they suffice depends on the way the stream is cut
(`Suffices`): frames of at least `33 * c` bytes do (`suffices_of_large`), single bytes do not.
-/

namespace SuspiciousPackage

namespace IoTClientFrame

/-- `IMAGE_SIZE` -/
def imageSize : ℕ := 108800

/-- `sys.getsizeof` of a `bytes` object of length `n`; `c` is the size of an empty one. -/
def getsizeof (c n : ℕ) : ℕ := n + c

/-- The variables of the loop, and what `recv` is going to return: `none` is a `socket.error`. -/
structure Receiving where
  numBytesReceived : ℕ
  data : List (BitVec 8)
  incoming : List (Option (List (BitVec 8)))

/-- One pass of the loop; it waits where nothing comes any more. -/
def Receiving.next (c : ℕ) (s : Receiving) : Option Receiving :=
  match s.incoming with
  | [] => none
  | none :: incoming => some { s with incoming := incoming }
  | some frame :: incoming =>
    some
      { numBytesReceived := s.numBytesReceived + getsizeof c frame.length
        data := s.data ++ frame
        incoming := incoming }

theorem Receiving.next_incoming {c : ℕ} {s s' : Receiving} (h : s.next c = some s') :
    s'.incoming.length < s.incoming.length := by
  unfold Receiving.next at h
  split at h
  · cases h
  · next hin => cases h; rw [hin]; exact Nat.lt_succ_self _
  · next hin => cases h; rw [hin]; exact Nat.lt_succ_self _

/-- `while num_bytes_received < IMAGE_SIZE` -/
def receiveLoop (c : ℕ) : Loop.While Receiving where
  test s := s.numBytesReceived < imageSize
  body s := s.next c
  variant s := s.incoming.length
  down _ _ _ hb := Receiving.next_incoming hb

/-- The loop from its start. -/
def receive (c : ℕ) (incoming : List (Option (List (BitVec 8)))) : Option Receiving :=
  (receiveLoop c).run ⟨0, [], incoming⟩

/-! ## Where the loop is left -/

section Received

variable {c : ℕ} {frames : List (List (BitVec 8))} {incoming : List (Option (List (BitVec 8)))}

/-- What `num_bytes_received` is after the frames. -/
def counted (c : ℕ) (frames : List (List (BitVec 8))) : ℕ := (received frames).length + c * frames.length

theorem received_eq_flatten : received frames = frames.flatten := by
  have hacc : ∀ acc, frames.foldl (· ++ ·) acc = acc ++ frames.flatten := by
    intro acc
    induction frames generalizing acc with
    | nil => simp
    | cons frame frames ih => rw [List.foldl_cons, ih, List.flatten_cons, List.append_assoc]
  exact hacc []

theorem received_concat (frame : List (BitVec 8)) : received (frames ++ [frame]) = received frames ++ frame := by
  simp [received_eq_flatten]

theorem received_take_le {m n : ℕ} (h : m ≤ n) :
    (received (frames.take m)).length ≤ (received (frames.take n)).length := by
  have hpre : frames.take m <+: frames.take n := List.take_prefix_take_left h
  obtain ⟨more, hmore⟩ := hpre
  rw [received_eq_flatten, received_eq_flatten, ← hmore, List.flatten_append, List.length_append]
  omega

theorem counted_concat (frame : List (BitVec 8)) :
    counted c (frames ++ [frame]) = counted c frames + getsizeof c frame.length := by
  unfold counted getsizeof
  rw [received_concat, List.length_append, List.length_append, List.length_singleton, Nat.mul_succ]
  omega

/-- The loop after the first `n` frames: it was not left before. -/
structure ReceivedIn (c : ℕ) (frames : List (List (BitVec 8))) (n : ℕ) (s : Receiving) : Prop where
  le : n ≤ frames.length
  data : s.data = received (frames.take n)
  num : s.numBytesReceived = counted c (frames.take n)
  rest : s.incoming.reduceOption = frames.drop n
  before : ∀ m < n, counted c (frames.take m) < imageSize

theorem receivedIn_start : ReceivedIn c incoming.reduceOption 0 ⟨0, [], incoming⟩ :=
  ⟨Nat.zero_le _, rfl, by simp [counted, received], rfl, fun m hm => absurd hm (Nat.not_lt_zero m)⟩

/-- One pass, while something comes. -/
theorem ReceivedIn.next {n : ℕ} {s : Receiving} (h : ReceivedIn c frames n s) (htest : s.numBytesReceived < imageSize)
    (hmore : n < frames.length) : ∃ s', s.next c = some s' ∧ ∃ n, ReceivedIn c frames n s' := by
  obtain ⟨-, hdata, hnum, hrest, hbefore⟩ := h
  unfold Receiving.next
  match hin : s.incoming with
  | [] =>
    rw [hin, List.reduceOption_nil, eq_comm, List.drop_eq_nil_iff] at hrest
    omega
  | none :: incoming =>
    rw [hin, List.reduceOption_cons_of_none] at hrest
    exact ⟨_, rfl, n, Nat.le_of_lt hmore, hdata, hnum, hrest, hbefore⟩
  | some frame :: incoming =>
    rw [hin, List.reduceOption_cons_of_some, List.drop_eq_getElem_cons hmore, List.cons.injEq] at hrest
    obtain ⟨rfl, hrest⟩ := hrest
    refine ⟨_, rfl, n + 1, hmore, ?_, ?_, hrest, fun m hm => ?_⟩
    · rw [List.take_succ_eq_append_getElem hmore, received_concat, ← hdata]
    · rw [List.take_succ_eq_append_getElem hmore, counted_concat, ← hnum]
    · obtain rfl | hlt : m = n ∨ m < n := by omega
      · rw [← hnum]
        exact htest
      · exact hbefore m hlt

/-- **The loop is left** when enough has been sent, at the first frame that counts enough. -/
theorem receive_eq (htotal : imageSize ≤ (received incoming.reduceOption).length) :
    ∃ s n, receive c incoming = some s ∧ ReceivedIn c incoming.reduceOption n s ∧
      imageSize ≤ s.numBytesReceived := by
  have hpass : ∀ s, (receiveLoop c).test s = true → (∃ n, ReceivedIn c incoming.reduceOption n s) →
      ∃ s', (receiveLoop c).body s = some s' ∧ ∃ n, ReceivedIn c incoming.reduceOption n s' := by
    rintro s htest ⟨n, hs⟩
    have hlt : s.numBytesReceived < imageSize := of_decide_eq_true htest
    refine hs.next hlt ?_
    by_contra hall
    rw [hs.num, List.take_of_length_le (by omega)] at hlt
    unfold counted at hlt
    omega
  obtain ⟨s, hrun, ⟨n, hs⟩, htest⟩ := Loop.While.run_total hpass _ ⟨0, receivedIn_start⟩
  exact ⟨s, n, hrun, hs, Nat.le_of_not_lt (of_decide_eq_false htest)⟩

end Received

/-! ## The writer's demand -/

/-- Every index of the writer is in range. -/
def IndicesInRange (data : List (BitVec 8)) : Prop :=
  ∀ h < height, ∀ w < width, h * width * 2 + w * 2 + 1 < data.length

theorem indicesInRange_iff {data : List (BitVec 8)} : IndicesInRange data ↔ 2 * width * height ≤ data.length := by
  have hheight : height = 165 := rfl
  have hwidth : width = 320 := rfl
  unfold IndicesInRange
  rw [hheight, hwidth]
  constructor
  · intro hin
    have hlast := hin 164 (by omega) 319 (by omega)
    omega
  · intro hlen h hh w hw
    omega

/-- A loop whose passes fail or not, whatever has been accumulated. -/
theorem foldlM_isSome {α β : Type*} {f : β → α → Option β} {p : α → Prop} {l : List α}
    (h : ∀ a ∈ l, ∀ acc, (f acc a).isSome ↔ p a) (acc : β) : (l.foldlM f acc).isSome ↔ ∀ a ∈ l, p a := by
  induction l generalizing acc with
  | nil => simp
  | cons a l ih =>
    have ha := h a List.mem_cons_self acc
    rw [List.foldlM_cons, List.forall_mem_cons, ← ha]
    cases f acc a with
    | none => simp
    | some acc' => simpa using ih (fun b hb => h b (List.mem_cons_of_mem a hb)) acc'

theorem writePixel_isSome {data : List (BitVec 8)} (h w : ℕ) (fRec : List Char) :
    (writePixel data h w fRec).isSome ↔ h * width * 2 + w * 2 + 1 < data.length := by
  unfold writePixel
  constructor
  · intro hsome
    by_contra hge
    rw [List.getElem?_eq_none (Nat.le_of_not_lt hge)] at hsome
    simp at hsome
  · intro hlt
    have hlt' : h * width * 2 + w * 2 < data.length := by omega
    rw [List.getElem?_eq_getElem hlt, List.getElem?_eq_getElem hlt']
    rfl

/-- **The writer raises** exactly when an index is out of range. -/
theorem writePpm_isSome {data : List (BitVec 8)} : (writePpm data).isSome ↔ IndicesInRange data := by
  have hrow : ∀ h ∈ List.range height, ∀ fRec, (writeRow data h fRec).isSome ↔
      ∀ w < width, h * width * 2 + w * 2 + 1 < data.length := by
    intro h _ fRec
    unfold writeRow
    rw [Option.isSome_map, foldlM_isSome fun w _ => writePixel_isSome h w]
    simp only [List.mem_range]
  unfold writePpm
  rw [foldlM_isSome hrow]
  simp only [List.mem_range, IndicesInRange]

/-! ## What the client waits for -/

section Waits

variable {c : ℕ} {frames : List (List (BitVec 8))}

/-- The frames are cut such that those which count enough hold `N` bytes. -/
def Suffices (c : ℕ) (frames : List (List (BitVec 8))) (N : ℕ) : Prop :=
  ∀ m ≤ frames.length, imageSize ≤ counted c (frames.take m) → N ≤ (received (frames.take m)).length

theorem ReceivedIn.le_length_iff {n N : ℕ} {s : Receiving} (h : ReceivedIn c frames n s)
    (hexit : imageSize ≤ s.numBytesReceived) : N ≤ s.data.length ↔ Suffices c frames N := by
  obtain ⟨hle, hdata, hnum, -, hbefore⟩ := h
  rw [hdata]
  constructor
  · intro hN m hm hcount
    have hmn : n ≤ m := by
      by_contra hlt
      have hfew := hbefore m (by omega)
      omega
    exact Nat.le_trans hN (received_take_le hmn)
  · intro hN
    exact hN n hle (hnum ▸ hexit)

/-- Frames of `33 * c` bytes are large enough for the writer. -/
theorem suffices_of_large (hlarge : ∀ frame ∈ frames, 33 * c ≤ frame.length) :
    Suffices c frames (2 * width * height) := by
  have hsum : ∀ m ≤ frames.length, 33 * (c * m) ≤ (received (frames.take m)).length := by
    intro m hm
    induction m with
    | zero => exact Nat.zero_le _
    | succ m ih =>
      have hlast := hlarge _ (List.getElem_mem hm)
      have hfirst := ih (by omega)
      rw [List.take_succ_eq_append_getElem hm, received_concat, List.length_append, Nat.mul_succ]
      omega
  intro m hm hcount
  have hle := hsum m hm
  have hlen : (frames.take m).length = m := List.length_take_of_le hm
  have hpix : 2 * width * height = 105600 := rfl
  have himage : imageSize = 108800 := rfl
  unfold counted at hcount
  rw [hlen] at hcount
  omega

/-- What is to hold when the loop is left. -/
structure Waited (s : Receiving) : Prop where
  counted : s.numBytesReceived ≤ s.data.length
  enough : imageSize ≤ s.data.length
  covers : 2 * width * height ≤ imageSize
  inRange : IndicesInRange s.data

/-- The loop counts more than it receives. -/
theorem ReceivedIn.not_waited (hc : 0 < c) {n : ℕ} {s : Receiving} (h : ReceivedIn c frames n s)
    (hexit : imageSize ≤ s.numBytesReceived) : ¬ Waited s := by
  rintro ⟨hcounted, -, -, -⟩
  have hlen : (frames.take n).length = n := List.length_take_of_le h.le
  have hnum := h.num
  unfold IoTClientFrame.counted at hnum
  rw [hlen, ← h.data] at hnum
  have hzero : n = 0 := by
    by_contra hn
    have hpos : 0 < c * n := Nat.mul_pos hc (Nat.pos_of_ne_zero hn)
    omega
  subst hzero
  rw [h.data] at hcounted
  have himage : imageSize = 108800 := rfl
  have hnil : (received (frames.take 0)).length = 0 := rfl
  omega

theorem reduceOption_map_some {α : Type*} (l : List α) : (l.map some).reduceOption = l := by
  simp [List.reduceOption]

/-- **The client never waits for what it counts**: however the stream is cut, the loop is left with
`num_bytes_received` above the bytes received.  The bytes suffice for the image size, and for the writer, exactly when
the frames are cut accordingly. -/
theorem receive_waits_never (c : ℕ) (hc : 0 < c) (incoming : List (Option (List (BitVec 8))))
    (htotal : imageSize ≤ (received incoming.reduceOption).length) :
    ∃ s, receive c incoming = some s ∧ ¬ Waited s ∧
      (imageSize ≤ s.data.length ↔ Suffices c incoming.reduceOption imageSize) ∧
      (IndicesInRange s.data ↔ Suffices c incoming.reduceOption (2 * width * height)) := by
  obtain ⟨s, n, hrun, hs, hexit⟩ := receive_eq htotal
  refine ⟨s, hrun, hs.not_waited hc hexit, hs.le_length_iff hexit, ?_⟩
  rw [indicesInRange_iff]
  exact hs.le_length_iff hexit

/-- Frames of `4096` bytes after an error: the count is wrong, and the writer has enough. -/
theorem receive_waits_never_large :
    ∃ s, receive 33 (none :: (List.replicate 27 (List.replicate 4096 0)).map some) = some s ∧ ¬ Waited s ∧
      IndicesInRange s.data := by
  have hframes : (none :: (List.replicate 27 (List.replicate 4096 (0 : BitVec 8))).map some).reduceOption =
      List.replicate 27 (List.replicate 4096 0) := by
    rw [List.reduceOption_cons_of_none, reduceOption_map_some]
  have htotal : imageSize ≤ (received
      (none :: (List.replicate 27 (List.replicate 4096 (0 : BitVec 8))).map some).reduceOption).length := by
    have himage : imageSize = 108800 := rfl
    rw [hframes, received_eq_flatten, List.length_flatten, List.map_replicate, List.sum_replicate_nat,
      List.length_replicate, himage]
    omega
  obtain ⟨s, hrun, hnot, -, hwriter⟩ := receive_waits_never 33 (by omega) _ htotal
  refine ⟨s, hrun, hnot, hwriter.mpr ?_⟩
  rw [hframes]
  refine suffices_of_large fun frame hframe => ?_
  rw [List.eq_of_mem_replicate hframe, List.length_replicate]
  omega

end Waits

/-- `n` frames of one byte. -/
def singleBytes (n : ℕ) : List (List (BitVec 8)) := List.replicate n [0]

theorem length_received_singleBytes (n : ℕ) : (received (singleBytes n)).length = n := by
  rw [received_eq_flatten, List.length_flatten]
  simp [singleBytes]

theorem take_singleBytes {m n : ℕ} (h : m ≤ n) : (singleBytes n).take m = singleBytes m := by
  unfold singleBytes
  rw [List.take_replicate, Nat.min_eq_left h]

theorem counted_singleBytes (c n : ℕ) : counted c (singleBytes n) = n + c * n := by
  unfold counted
  rw [length_received_singleBytes, singleBytes, List.length_replicate]

/-- A stream of single bytes, with the `33` bytes of an empty `bytes` object: the loop is left after `3200` of them,
and the writer raises. -/
theorem receive_single_bytes :
    ∃ s, receive 33 ((singleBytes 108800).map some) = some s ∧ s.numBytesReceived = 108800 ∧ s.data.length = 3200 ∧
      writePpm s.data = none ∧ ¬ Waited s := by
  have himage : imageSize = 108800 := rfl
  have htotal : imageSize ≤ (received ((singleBytes 108800).map some).reduceOption).length := by
    rw [reduceOption_map_some, length_received_singleBytes]
    exact Nat.le_of_eq himage
  obtain ⟨s, n, hrun, hs, hexit⟩ := receive_eq (c := 33) htotal
  rw [reduceOption_map_some] at hs
  have hle : n ≤ 108800 := List.length_replicate (n := 108800) ▸ hs.le
  have hnum : s.numBytesReceived = n + 33 * n := by rw [hs.num, take_singleBytes hle, counted_singleBytes]
  have hn : n = 3200 := by
    have hbefore := hs.before (n - 1)
    rw [take_singleBytes (by omega), counted_singleBytes] at hbefore
    omega
  subst hn
  have hdata : s.data.length = 3200 := by rw [hs.data, take_singleBytes hle, length_received_singleBytes]
  have hraise : writePpm s.data = none := by
    rw [← Option.not_isSome_iff_eq_none, writePpm_isSome, indicesInRange_iff, hdata]
    have hpix : 2 * width * height = 105600 := rfl
    omega
  exact ⟨s, hrun, hnum, hdata, hraise, hs.not_waited (by omega) hexit⟩

end IoTClientFrame

end SuspiciousPackage
