import SuspiciousPackage.Config.Configuration
import Mathlib.Algebra.BigOperators.Intervals

/-!
# Config.Configured — what the camera has received, and when

`registers` is the register file of a camera that takes every write addressed to it, and `table n` what the first `n`
entries of the table ask for.  A repeated transfer writes the same entry again, so the register file is never but one
entry away from the table.  `remaining` counts the steps left without refusals: every move takes one away, and a refusal
gives those of the transfer back.
-/

namespace SuspiciousPackage

open Sync TwoWire

namespace I2CAvConfig

open I2CController (frames bitsOf last IsAck)

/-! ## The register file -/

/-- A byte, most significant bit first. -/
def byteOf (b : List Bool) : BitVec 8 := BitVec.ofNat 8 (b.foldl (fun n x => 2 * n + x.toNat) 0)

def byteAt (m : List Bool) (k : ℕ) : BitVec 8 := byteOf ((m.drop k).take 8)

/-- The register a message writes, and the byte for it: three bytes, each with the bit after it. -/
def written (m : List Bool) : Option (BitVec 8 × BitVec 8) :=
  if m.length = 27 ∧ byteAt m 0 = 0x42 then some (byteAt m 9, byteAt m 18) else none

abbrev Registers := BitVec 8 → Option (BitVec 8)

def receive (r : Registers) (m : List Bool) : Registers :=
  match written m with
  | some (a, b) => Function.update r a (some b)
  | none => r

/-- The register file after the messages. -/
def registers (ms : List (List Bool)) : Registers := ms.foldl receive fun _ => none

/-- The number of the register of an entry, and the byte for it. -/
def entry (j : ℕ) : BitVec 8 × BitVec 8 :=
  ((lutData (BitVec.ofNat 8 j)).extractLsb' 8 8, (lutData (BitVec.ofNat 8 j)).extractLsb' 0 8)

/-- What an entry asks for. -/
def apply (j : ℕ) (r : Registers) : Registers :=
  if isWrite j then Function.update r (entry j).1 (some (entry j).2) else r

/-- What the first `n` entries ask for. -/
def table : ℕ → Registers
  | 0 => fun _ => none
  | n + 1 => apply n (table n)

theorem apply_apply (j : ℕ) (r : Registers) : apply j (apply j r) = apply j r := by
  unfold apply
  split_ifs
  · exact Function.update_idem _ _ _
  · rfl

section Bytes

theorem byteOf_bits (x : BitVec 8) : byteOf ((List.range 8).map fun j => x.getLsbD (7 - j)) = x := by
  revert x
  decide +kernel

theorem eq_of_reads {l b : List Bool} (h : Reads (l.map some) b) : b = l := by
  induction l generalizing b with
  | nil => exact List.forall₂_nil_left_iff.mp h
  | cons x l ih =>
    obtain ⟨y, b', hy, hb, rfl⟩ := List.forall₂_cons_left_iff.mp h
    rw [hy x rfl, ih hb]

theorem byteOf_of_reads {w : BitVec 24} {k : ℕ} {b : List Bool} (h : Reads (bitsOf w (k + 7) 8) b) :
    byteOf b = w.extractLsb' k 8 := by
  have hbits : bitsOf w (k + 7) 8 = ((List.range 8).map fun j => (w.extractLsb' k 8).getLsbD (7 - j)).map some := by
    unfold bitsOf
    rw [List.map_map]
    refine List.map_congr_left fun j hj => ?_
    have hj' : j < 8 := List.mem_range.mp hj
    have hidx : k + 7 - j = k + (7 - j) := by omega
    show some _ = some ((w.extractLsb' k 8).getLsbD (7 - j))
    rw [BitVec.getLsbD_extractLsb', hidx, decide_eq_true (by omega : 7 - j < 8), Bool.true_and]
  rw [hbits] at h
  rw [eq_of_reads h, byteOf_bits]

theorem byteAt_of_reads {w : BitVec 24} {k n : ℕ} {e : List (Option Bool)} {b : List Bool} (h : Reads e b)
    (he : (e.drop n).take 8 = bitsOf w (k + 7) 8) : byteAt b n = w.extractLsb' k 8 :=
  byteOf_of_reads (he ▸ List.forall₂_take 8 (List.forall₂_drop n h))

/-- The bytes of what is transferred. -/
theorem extract_word (j : ℕ) : (word j).extractLsb' 16 8 = 0x42 ∧ (word j).extractLsb' 8 8 = (entry j).1 ∧
    (word j).extractLsb' 0 8 = (entry j).2 := by
  unfold word entry
  generalize lutData _ = d
  refine ⟨?_, ?_, ?_⟩
  · exact BitVec.extractLsb'_append_eq_left
  · refine BitVec.eq_of_getLsbD_eq fun i hi => ?_
    have hi' : 8 + i < 16 := by omega
    rw [BitVec.getLsbD_extractLsb', BitVec.getLsbD_extractLsb', BitVec.getLsbD_append, if_pos hi']
  · refine BitVec.eq_of_getLsbD_eq fun i hi => ?_
    have hi' : 0 + i < 16 := by omega
    rw [BitVec.getLsbD_extractLsb', BitVec.getLsbD_extractLsb', BitVec.getLsbD_append, if_pos hi']

end Bytes

section Received

variable {j : ℕ} {ms : List (List Bool)} {r : Registers}

theorem receive_of_length {m : List Bool} (h : m.length ≠ 27) : receive r m = r := by
  unfold receive written
  rw [if_neg fun hm => h hm.1]

/-- A transfer does what its entry asks for. -/
theorem receive_frames (h : ReadsAll (frames (isWrite j) (word j)) ms) : ms.foldl receive r = apply j r := by
  unfold apply
  cases hw : isWrite j with
  | true =>
    rw [hw] at h
    obtain ⟨m, ms', hm, hms, rfl⟩ := List.forall₂_cons_left_iff.mp h
    obtain rfl := List.forall₂_nil_left_iff.mp hms
    obtain ⟨h0, h1, h2⟩ := extract_word j
    have hlen : m.length = 27 := hm.length_eq.symm
    have haddr : byteAt m 0 = 0x42 := (byteAt_of_reads (w := word j) (k := 16) hm rfl).trans h0
    have hreg : byteAt m 9 = (entry j).1 := (byteAt_of_reads (w := word j) (k := 8) hm rfl).trans h1
    have hbyte : byteAt m 18 = (entry j).2 := (byteAt_of_reads (w := word j) (k := 0) hm rfl).trans h2
    show receive r m = _
    unfold receive written
    rw [if_pos ⟨hlen, haddr⟩, hreg, hbyte]
    rfl
  | false =>
    rw [hw] at h
    obtain ⟨m, ms', hm, hms, rfl⟩ := List.forall₂_cons_left_iff.mp h
    obtain ⟨m', ms'', hm', hms', rfl⟩ := List.forall₂_cons_left_iff.mp hms
    obtain rfl := List.forall₂_nil_left_iff.mp hms'
    have hlen : m.length = 18 := hm.length_eq.symm
    have hlen' : m'.length = 18 := hm'.length_eq.symm
    show receive (receive r m) m' = _
    rw [receive_of_length (m := m) (by omega), receive_of_length (by omega)]
    rfl

/-- A part of a transfer does all of it or nothing. -/
theorem receive_part {part : List (List (Option Bool))} (hpart : part <+: frames (isWrite j) (word j))
    (h : ReadsAll part ms) : ms.foldl receive r = r ∨ ms.foldl receive r = apply j r := by
  by_cases hfull : part.length = (frames (isWrite j) (word j)).length
  · rw [hpart.eq_of_length hfull] at h
    exact Or.inr (receive_frames h)
  · have hlt : part.length < (frames (isWrite j) (word j)).length := lt_of_le_of_ne hpart.length_le hfull
    have hlen := h.length_eq
    rcases part with _ | ⟨e, _ | ⟨e', part⟩⟩
    · obtain rfl := List.forall₂_nil_left_iff.mp h
      exact Or.inl rfl
    · -- the first message of a read
      cases hw : isWrite j with
      | true =>
        rw [hw] at hlt
        exact absurd hlt (by simp [frames])
      | false =>
        rw [hw] at hpart
        obtain ⟨m, ms', hm, hms, rfl⟩ := List.forall₂_cons_left_iff.mp h
        obtain rfl := List.forall₂_nil_left_iff.mp hms
        have he : e.length = 18 := by
          rw [(List.cons_prefix_cons.mp hpart).1]
          rfl
        have hlen' : m.length = 18 := hm.length_eq.symm.trans he
        exact Or.inl (receive_of_length (by omega))
    · refine absurd hlt ?_
      cases isWrite j <;> simp [frames]

/-- The register file after the transfers `A`: the table up to the entries passed, or one entry more. -/
theorem registers_of_carried {A : List (List Bool)} (h : ReadsAll (carriedFrom 0 A) ms) :
    (registers ms = table (A.countP accepted) ∨ registers ms = table (A.countP accepted + 1)) ∧
      ∀ A' a, A = A' ++ [a] → registers ms = table (A'.countP accepted + 1) := by
  induction A using List.reverseRecOn generalizing ms with
  | nil =>
    obtain rfl := List.forall₂_nil_left_iff.mp h
    exact ⟨Or.inl rfl, fun A' a hA => absurd hA (by simp)⟩
  | append_singleton A a ih =>
    rw [carriedFrom_concat, Nat.zero_add] at h
    have hlast : registers ms = table (A.countP accepted + 1) := by
      obtain ⟨x, y, rfl, hx, hy⟩ := h.of_append
      obtain ⟨hdone, -⟩ := ih hx
      unfold registers
      rw [List.foldl_append, receive_frames hy]
      show apply _ (registers x) = apply _ (table _)
      rcases hdone with hdone | hdone
      · rw [hdone]
      · rw [hdone]
        exact apply_apply _ _
    refine ⟨?_, fun A' a' hA => ?_⟩
    · rw [List.countP_append, List.countP_singleton, hlast]
      cases accepted a
      · exact Or.inr rfl
      · exact Or.inl rfl
    · rw [← (List.append_inj' hA rfl).1]
      exact hlast

end Received

/-! ## The steps that are left -/

/-- The steps from the first one of entry `j` on, without refusals. -/
def after (j : ℕ) : ℕ := ∑ i ∈ Finset.Ico j lutSize, (last (isWrite i) + 3)

/-- The steps left in a stage of entry `j`, without refusals. -/
def remaining (j : ℕ) : Stage → ℕ
  | .rest => after j
  | .again => last (isWrite j) + 2 + after (j + 1)
  | .transfer c => last (isWrite j) - c + 2 + after (j + 1)
  | .next => 1 + after (j + 1)
  | .retry => last (isWrite j) + 3 + after (j + 1)
  | .finished => 0

/-- The steps of the refused transfers among `A` when the first one is for entry `j`. -/
def refused (j : ℕ) : List (List Bool) → ℕ
  | [] => 0
  | a :: A => if accepted a then refused (j + 1) A else last (isWrite j) + 2 + refused j A

/-- The turns of the slow clock before cycle `t`. -/
def turns (t : ℕ) : ℕ := (t - 2) / 2502

theorem after_eq {j : ℕ} (h : j < lutSize) : after j = last (isWrite j) + 3 + after (j + 1) :=
  Finset.sum_eq_sum_Ico_succ_bot h _

theorem after_lutSize : after lutSize = 0 := Finset.sum_eq_zero (by simp)

theorem after_zero : after 0 = 8335 := by
  decide +kernel

theorem refused_concat (j : ℕ) (A : List (List Bool)) (a : List Bool) : refused j (A ++ [a]) =
    refused j A + if accepted a then 0 else last (isWrite (j + A.countP accepted)) + 2 := by
  induction A generalizing j with
  | nil => exact (Nat.zero_add _).symm
  | cons x A ih =>
    show (if accepted x then refused (j + 1) (A ++ [a]) else last (isWrite j) + 2 + refused j (A ++ [a])) =
      (if accepted x then refused (j + 1) A else last (isWrite j) + 2 + refused j A) + _
    rw [ih, ih, List.countP_cons]
    cases accepted x
    · exact (Nat.add_assoc _ _ _).symm
    · rw [if_pos rfl, if_pos rfl, if_pos rfl, show j + 1 + A.countP accepted = j + (A.countP accepted + 1) by omega]

theorem turns_turn {t : ℕ} (h : phase t = .turn) : turns (t + 1) = turns t + 1 := by
  unfold phase at h
  unfold turns
  split_ifs at h
  omega

theorem turns_stay {t : ℕ} (h : phase t ≠ .turn) : turns (t + 1) = turns t := by
  unfold phase at h
  unfold turns
  split_ifs at h <;> first | omega | exact absurd rfl h

/-- A move takes one of the remaining steps, and a refusal adds its own. -/
theorem remaining_move {j j' : ℕ} {st st' : Stage} {A A' : List (List Bool)} (hl : Logged j st A)
    (hlt : st ≠ .finished → j < lutSize) (h : Move j A st j' st' A') (hst : st ≠ .finished) :
    remaining j' st' + 1 + refused 0 A = remaining j st + refused 0 A' := by
  have hcount : A.countP accepted = passed j st := hl.count
  have hj := after_eq (hlt hst)
  cases h with
  | start =>
    show last (isWrite j) - 0 + 2 + after (j + 1) + 1 + _ = after j + _
    omega
  | restart =>
    have hpos : 0 < last (isWrite j) := by
      cases isWrite j <;> decide
    show last (isWrite j) - 1 + 2 + after (j + 1) + 1 + _ = last (isWrite j) + 2 + after (j + 1) + _
    omega
  | count c hc =>
    show last (isWrite j) - (c + 1) + 2 + after (j + 1) + 1 + _ = last (isWrite j) - c + 2 + after (j + 1) + _
    omega
  | accept a ha h3 =>
    rw [refused_concat, ha]
    show 1 + after (j + 1) + 1 + _ = last (isWrite j) - last (isWrite j) + 2 + after (j + 1) + (_ + 0)
    omega
  | refuse a ha h3 =>
    rw [refused_concat, ha, Nat.zero_add, hcount]
    show last (isWrite j) + 3 + after (j + 1) + 1 + _ =
      last (isWrite j) - last (isWrite j) + 2 + after (j + 1) + (_ + (last (isWrite j) + 2))
    omega
  | advance hne =>
    show after (j + 1) + 1 + _ = 1 + after (j + 1) + _
    omega
  | finish heq =>
    have hzero : after (j + 1) = 0 := heq ▸ after_lutSize
    show 0 + 1 + _ = 1 + after (j + 1) + _
    omega
  | retry =>
    show last (isWrite j) + 2 + after (j + 1) + 1 + _ = last (isWrite j) + 3 + after (j + 1) + _
    omega
  | stay => exact absurd rfl hst

theorem Move.of_finished {j j' : ℕ} {st' : Stage} {A A' : List (List Bool)} (h : Move j A .finished j' st' A') :
    j' = j ∧ st' = .finished ∧ A' = A := by
  cases h
  exact ⟨rfl, rfl, rfl⟩

/-! ## Along a run -/

section Run

variable {ins : ℕ → Bool} {t j : ℕ} {st : Stage}

theorem configDone_clock {s : Setup} {e a : Bool} :
    (s.clock e a).configDone = !decide (s.lutIndex.toNat < lutSize) := by
  unfold Setup.clock
  by_cases hlt : s.lutIndex.toNat < lutSize
  · rw [if_pos hlt, decide_eq_true hlt]
    split
    · rfl
    · cases e <;> rfl
    · rfl
    · rfl
  · rw [if_neg hlt, decide_eq_false hlt]
    rfl

theorem configDone_turn (hph : phase t = .turn) : (runOn ins (t + 1)).setup.configDone =
    !decide ((runOn ins t).setup.lutIndex.toNat < lutSize) := by
  have hn : (runOn ins t).i2cNegclk = true := (i2cNegclk_eq t).trans (decide_eq_true hph)
  rw [runOn_succ, clock_setup hn]
  exact configDone_clock

theorem configDone_stay (hph : phase t ≠ .turn) :
    (runOn ins (t + 1)).setup.configDone = (runOn ins t).setup.configDone := by
  have hn : (runOn ins t).i2cNegclk = false := (i2cNegclk_eq t).trans (decide_eq_false hph)
  rw [runOn_succ, (clock_of_not_negclk hn).1]

theorem InStage.lutIndex_eq {s : I2CAvConfig} (h : InStage j st s) : s.setup.lutIndex.toNat = j := by
  cases st with
  | finished => exact h.1.trans h.2.1.symm
  | _ => exact h.1.lutIndex

theorem InStage.finished_of_configDone {s : I2CAvConfig} (h : InStage j st s) (hd : s.setup.configDone = true) :
    st = .finished := by
  cases st with
  | finished => rfl
  | _ => exact absurd (h.1.configDone.symm.trans hd) Bool.false_ne_true

/-- When the transfers made so far let the configuration be done. -/
def due (ins : ℕ → Bool) (t : ℕ) : ℕ := after 0 + refused 0 (attempts ins t)

/-- **The steps made and the steps left.** -/
theorem timed_run (ins : ℕ → Bool) (t : ℕ) : ∃ j st, Staged ins t j st ∧
    ((turns t + remaining j st = due ins t ∧ (runOn ins t).setup.configDone = false) ∨
      (st = .finished ∧ due ins t < turns t ∧ (runOn ins t).setup.configDone = true)) := by
  induction t with
  | zero =>
    refine ⟨0, .rest, staged_zero, Or.inl ⟨?_, rfl⟩⟩
    have hturns : turns 0 = 0 := rfl
    have hrefused : refused 0 (attempts ins 0) = 0 := rfl
    have hrest : remaining 0 .rest = after 0 := rfl
    unfold due
    omega
  | succ t ih =>
    obtain ⟨j, st, hs, htimed⟩ := ih
    by_cases hph : phase t = .turn
    · obtain ⟨j', st', hmove, hs'⟩ := staged_turn hs hph
      refine ⟨j', st', hs', ?_⟩
      rw [turns_turn hph, configDone_turn hph, hs.stage.lutIndex_eq]
      by_cases hst : st = .finished
      · subst hst
        obtain ⟨-, rfl, hattempts⟩ := hmove.of_finished
        have hj : j = lutSize := hs.stage.2.1
        have hdue : due ins (t + 1) = due ins t := by
          unfold due
          rw [hattempts]
        refine Or.inr ⟨rfl, ?_, by rw [hj]; rfl⟩
        rw [hdue]
        rcases htimed with ⟨hrem, -⟩ | ⟨-, hlt, -⟩
        · have hrem' : turns t + 0 = due ins t := hrem
          omega
        · omega
      · have hlt := hs.stage.lt hst
        have hrem := remaining_move hs.logged hs.stage.lt hmove hst
        refine Or.inl ⟨?_, by rw [decide_eq_true hlt]; rfl⟩
        rcases htimed with ⟨hold, -⟩ | ⟨hfin, -, -⟩
        · unfold due at hold ⊢
          omega
        · exact absurd hfin hst
    · obtain ⟨hs', hattempts⟩ := staged_stay hs hph
      refine ⟨j, st, hs', ?_⟩
      unfold due at htimed ⊢
      rw [turns_stay hph, configDone_stay hph, hattempts]
      exact htimed

theorem configDone_due (ins : ℕ → Bool) (t : ℕ) : (runOn ins t).setup.configDone = true ↔ due ins t < turns t := by
  obtain ⟨j, st, -, ⟨hrem, hd⟩ | ⟨-, hlt, hd⟩⟩ := timed_run ins t
  · rw [hd]
    exact ⟨nofun, fun hlt => by omega⟩
  · exact ⟨fun _ => hlt, fun _ => hd⟩

/-- **The camera is configured exactly on time.**  A configuration without refusals takes 8335 turns of the slow clock,
and every refused transfer its own length more, of which there is no limit: `Config_Done` is high in the cycles after
that, and in no others. -/
theorem configDone_iff (ins : ℕ → Bool) (t : ℕ) :
    (runOn ins t).setup.configDone = true ↔ 8335 + refused 0 (attempts ins t) < (t - 2) / 2502 := by
  have hdue := configDone_due ins t
  unfold due turns at hdue
  rw [after_zero] at hdue
  exact hdue

/-! ### The bus -/

/-- With the last entry passed the register file is the table. -/
theorem registers_of_logged {A : List (List Bool)} {ms : List (List Bool)} (h : ReadsAll (carriedFrom 0 A) ms)
    (hlt : ∀ k < A.length, (A.take k).countP accepted < lutSize) (hcount : A.countP accepted = lutSize) :
    registers ms = table lutSize := by
  obtain ⟨-, hlast⟩ := registers_of_carried h
  rcases List.eq_nil_or_concat' A with rfl | ⟨A', a, rfl⟩
  · cases hcount
  · have hbefore := hlt A'.length (by rw [List.length_append]; exact Nat.lt_succ_self _)
    rw [List.take_left] at hbefore
    rw [List.countP_append, List.countP_singleton] at hcount
    rw [hlast A' a rfl]
    congr 1
    split_ifs at hcount <;> omega

/-- **What is on the bus.**  At any time a monitor has read the transfers made so far and a part of the one in progress,
each three times acknowledged or refused, in the order of the table: an entry again for every refusal, the next one for
every other transfer, nothing after the last.  A camera that takes what is written to it has the table up to the entry in
progress, or this one too. -/
theorem bus_carries (ins : ℕ → Bool) (hst : Steady ins) (t : ℕ) :
    (∀ a ∈ attempts ins t, a.length = 3) ∧
    (∀ k < (attempts ins t).length, ((attempts ins t).take k).countP accepted < lutSize) ∧
    ∃ n part, n = (attempts ins t).countP accepted ∧ part <+: frames (isWrite n) (word n) ∧ (n = lutSize → part = []) ∧
      ReadsAll (carriedFrom 0 (attempts ins t) ++ part) (heard ins t).messages ∧
      (registers (heard ins t).messages = table n ∨
        n < lutSize ∧ registers (heard ins t).messages = table (n + 1)) := by
  obtain ⟨j, st, hs, hfol⟩ := follows_run hst t
  obtain ⟨part, hpart, hnil, hline⟩ := messages_line hs.logged hs.stage
  have hreads := hfol.messages
  rw [hline] at hreads
  refine ⟨hs.logged.three, hs.logged.lt, _, part, rfl, hpart, hnil, hreads, ?_⟩
  have hle : (attempts ins t).countP accepted ≤ lutSize := by
    have hcount := hs.logged.count
    cases st with
    | next => exact hcount.trans_le hs.stage.1.lt
    | finished => exact (hcount.trans hs.stage.2.1).le
    | _ => exact (hcount.trans_lt hs.stage.1.lt).le
  rcases Nat.lt_or_eq_of_le hle with hn | hn
  · obtain ⟨x, y, hxy, hx, hy⟩ := hreads.of_append
    have hsplit : registers (heard ins t).messages = y.foldl receive (registers x) := by
      unfold registers
      rw [hxy, List.foldl_append]
    obtain ⟨hdone, -⟩ := registers_of_carried hx
    rw [hsplit]
    rcases receive_part (r := registers x) hpart hy with hrest | hrest
    · rw [hrest]
      exact hdone.imp id fun h => ⟨hn, h⟩
    · rw [hrest]
      refine Or.inr ⟨hn, ?_⟩
      rcases hdone with hdone | hdone
      · rw [hdone]
        rfl
      · rw [hdone]
        exact apply_apply _ _
  · rw [hnil hn, List.append_nil] at hreads
    rw [hn]
    exact Or.inl (registers_of_logged hreads hs.logged.lt hn)

/-- Once finished nothing moves. -/
theorem stays_finished (h : Staged ins t j .finished) (hd : (runOn ins t).setup.configDone = true) :
    Staged ins (t + 1) j .finished ∧ (runOn ins (t + 1)).setup.configDone = true ∧
      attempts ins (t + 1) = attempts ins t ∧ heard ins (t + 1) = heard ins t := by
  have hnext : Staged ins (t + 1) j .finished ∧ (runOn ins (t + 1)).setup.configDone = true ∧
      attempts ins (t + 1) = attempts ins t := by
    by_cases hph : phase t = .turn
    · obtain ⟨j', st', hmove, hs'⟩ := staged_turn h hph
      obtain ⟨rfl, rfl, hattempts⟩ := hmove.of_finished
      refine ⟨hs', ?_, hattempts⟩
      rw [configDone_turn hph, h.stage.lutIndex_eq, h.stage.2.1]
      rfl
    · obtain ⟨hs', hattempts⟩ := staged_stay h hph
      exact ⟨hs', (configDone_stay hph).trans hd, hattempts⟩
  refine ⟨hnext.1, hnext.2.1, hnext.2.2, ?_⟩
  -- both lines are and stay high
  have hhigh : ∀ u, Staged ins u j .finished → (runOn ins u).scl (ins u) = true ∧ (runOn ins u).sda (ins u) = true :=
    fun u hu => ⟨scl_eq hu.stage (mI2CCtrlClk_eq u), sda_eq hu.stage true rfl⟩
  obtain ⟨hscl, hsda⟩ := hhigh (t + 1) hnext.1
  obtain ⟨hc, hdat⟩ : (heard ins t).scl = _ ∧ (heard ins t).sda = _ := heard_lines t
  obtain ⟨hscl', hsda'⟩ := hhigh t h
  have hsteady := Monitor.sample_steady (hc.trans hscl')
  rw [hdat.trans hsda'] at hsteady
  show (heard ins t).sample _ _ = _
  rw [hscl, hsda, hsteady]

/-- **What `Config_Done` says.**  Every entry has been transferred with all acknowledgements, a monitor of the bus has read
exactly these transfers and their repetitions, the register file of the camera is that of the table, and from then on the
bus stays quiet. -/
theorem configured (ins : ℕ → Bool) (hst : Steady ins) (t : ℕ) (hd : (runOn ins t).setup.configDone = true) :
    (attempts ins t).countP accepted = lutSize ∧ ReadsAll (carriedFrom 0 (attempts ins t)) (heard ins t).messages ∧
      registers (heard ins t).messages = table lutSize ∧
      ∀ u ≥ t, (runOn ins u).setup.configDone = true ∧ attempts ins u = attempts ins t ∧ heard ins u = heard ins t := by
  obtain ⟨j, st, hs, hfol⟩ := follows_run hst t
  obtain rfl := hs.stage.finished_of_configDone hd
  have hj : j = lutSize := hs.stage.2.1
  have hcount : (attempts ins t).countP accepted = lutSize := hs.logged.count.trans hj
  have hreads : ReadsAll (carriedFrom 0 (attempts ins t)) (heard ins t).messages := hfol.messages
  refine ⟨hcount, hreads, registers_of_logged hreads hs.logged.lt hcount, fun u hu => ?_⟩
  have hrest : Staged ins u j .finished ∧ (runOn ins u).setup.configDone = true ∧ attempts ins u = attempts ins t ∧
      heard ins u = heard ins t := by
    induction u, hu using Nat.le_induction with
    | base => exact ⟨hs, hd, rfl, rfl⟩
    | succ u hu ih =>
      obtain ⟨hsu, hdu, hau, hhu⟩ := ih
      obtain ⟨hs', hd', ha', hh'⟩ := stays_finished hsu hdu
      exact ⟨hs', hd', ha'.trans hau, hh'.trans hhu⟩
  exact hrest.2

/-! ### A camera that never refuses -/

/-- The data line held low whenever it is released. -/
def willing : ℕ → Bool := fun _ => false

theorem steady_willing : Steady willing := fun _ _ _ _ _ => rfl

theorem sdo_of_isAck {wr : Bool} {c : ℕ} (h : IsAck wr c) : I2CController.sdo wr c = false := by
  rcases h with rfl | rfl | rfl <;> cases wr <;> rfl

theorem levels_willing (t : ℕ) : ∀ b ∈ levels willing t, b = false := by
  induction t with
  | zero => exact fun b hb => absurd hb List.not_mem_nil
  | succ t ih =>
    have hsda : IsAck (runOn willing t).setup.mI2CWr (runOn willing t).uI2CController.sdCounter.toNat →
        (runOn willing t).sda (willing t) = false := fun hack => by
      have hdrives : (runOn willing t).drives = false := sdo_of_isAck hack
      show (if (runOn willing t).drives then (runOn willing t).uI2CController.i2cBit else false) = false
      rw [hdrives]
      rfl
    unfold levels
    split_ifs with hn hgo hack
    · intro b hb
      rcases List.mem_append.mp hb with hb | hb
      · exact ih b hb
      · rw [List.mem_singleton.mp hb]
        exact hsda hack
    · exact ih
    · exact fun b hb => absurd hb List.not_mem_nil
    · exact ih

theorem accepted_willing (t : ℕ) : ∀ a ∈ attempts willing t, accepted a = true := by
  induction t with
  | zero => exact fun a ha => absurd ha List.not_mem_nil
  | succ t ih =>
    unfold attempts
    split_ifs
    · intro a ha
      rcases List.mem_append.mp ha with ha | ha
      · exact ih a ha
      · obtain rfl := List.mem_singleton.mp ha
        have hlow : (levels willing t).any id = false :=
          List.any_eq_false.mpr fun b hb => by rw [levels_willing t b hb]; exact Bool.false_ne_true
        unfold accepted
        rw [hlow]
        rfl
    · exact ih

theorem refused_of_accepted {A : List (List Bool)} (h : ∀ a ∈ A, accepted a = true) (j : ℕ) : refused j A = 0 := by
  induction A generalizing j with
  | nil => rfl
  | cons a A ih =>
    unfold refused
    rw [if_pos (h a List.mem_cons_self)]
    exact ih (fun x hx => h x (List.mem_cons_of_mem _ hx)) _

/-- Without refusals the configuration takes some 21 million cycles. -/
theorem configDone_willing {t : ℕ} (ht : 20856674 ≤ t) : (runOn willing t).setup.configDone = true := by
  refine (configDone_due willing t).mpr ?_
  unfold due turns
  rw [after_zero, refused_of_accepted (accepted_willing t)]
  omega

theorem bus_carries_willing : Steady willing ∧
    ∃ n part, n = (attempts willing 20856674).countP accepted ∧ part <+: frames (isWrite n) (word n) ∧
      (n = lutSize → part = []) ∧
      ReadsAll (carriedFrom 0 (attempts willing 20856674) ++ part) (heard willing 20856674).messages ∧
      (registers (heard willing 20856674).messages = table n ∨
        n < lutSize ∧ registers (heard willing 20856674).messages = table (n + 1)) :=
  ⟨steady_willing, (bus_carries willing steady_willing 20856674).2.2⟩

theorem configured_willing : registers (heard willing 20856674).messages = table lutSize ∧
    (attempts willing 20856674).countP accepted = 193 :=
  have h := configured willing steady_willing 20856674 (configDone_willing le_rfl)
  ⟨h.2.2.1, h.1⟩

end Run

end I2CAvConfig

end SuspiciousPackage
