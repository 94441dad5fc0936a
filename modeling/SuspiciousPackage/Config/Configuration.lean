import SuspiciousPackage.Config.I2CAvConfig
import Mathlib.Data.List.Count

/-!
# Config.Configuration — the configuration of the camera as seen on the bus

Along a run of `I2CAvConfig` from reset, with anything on the released data line: `heard` is what a monitor of the bus has
read, `levels` the levels sampled in the transfer in progress as acknowledgements, and `attempts` the transfers made, each
with its levels.  The entry a transfer is for is the number of transfers acknowledged before it (`carriedFrom`).  A step of
the two machines is a `Move`; `follows_run` follows them and the bus along the run.
-/

namespace SuspiciousPackage

open Sync TwoWire

namespace I2CAvConfig

open I2CController (frames lineAt symbol last acks Sampled IsAck)

/-! ## What is observed -/

section Observed

variable (ins : ℕ → Bool)

/-- The levels sampled as acknowledgements since `GO`. -/
def levels : ℕ → List Bool
  | 0 => []
  | t + 1 =>
    if (runOn ins t).i2cNegclk then
      if (runOn ins t).setup.mI2CGo then
        if IsAck (runOn ins t).setup.mI2CWr (runOn ins t).uI2CController.sdCounter.toNat then
          levels t ++ [(runOn ins t).sda (ins t)]
        else levels t
      else []
    else levels t

/-- The transfers whose end the state machine has seen, each with its levels. -/
def attempts : ℕ → List (List Bool)
  | 0 => []
  | t + 1 =>
    if (runOn ins t).i2cNegclk ∧ (runOn ins t).setup.mSetupSt = 1 ∧ (runOn ins t).uI2CController.endTransfer then
      attempts t ++ [levels ins t]
    else attempts t

/-- The monitor of the bus, with the lines of cycle `t` read. -/
def heard : ℕ → Monitor
  | 0 => Monitor.init
  | t + 1 => (heard t).sample ((runOn ins (t + 1)).scl (ins (t + 1))) ((runOn ins (t + 1)).sda (ins (t + 1)))

/-- Under a high clock the other side does not move the released data line. -/
def Steady : Prop :=
  ∀ t, (runOn ins t).scl (ins t) = true → (runOn ins (t + 1)).scl (ins (t + 1)) = true →
    (runOn ins t).drives = false → (runOn ins (t + 1)).drives = false → ins (t + 1) = ins t

end Observed

/-- All levels low. -/
def accepted (a : List Bool) : Bool := !a.any id

/-- The messages of the transfers `A` when the first one is for entry `j`. -/
def carriedFrom (j : ℕ) : List (List Bool) → List (List (Option Bool))
  | [] => []
  | a :: A => frames (isWrite j) (word j) ++ carriedFrom (if accepted a then j + 1 else j) A

theorem carriedFrom_concat (j : ℕ) (A : List (List Bool)) (a : List Bool) : carriedFrom j (A ++ [a]) =
    carriedFrom j A ++ frames (isWrite (j + A.countP accepted)) (word (j + A.countP accepted)) := by
  induction A generalizing j with
  | nil => exact List.append_nil _
  | cons x A ih =>
    show frames _ _ ++ carriedFrom _ (A ++ [a]) = (frames _ _ ++ carriedFrom _ A) ++ _
    rw [ih, List.append_assoc, List.countP_cons]
    cases accepted x
    · rfl
    · rw [if_pos rfl, if_pos rfl, show j + 1 + A.countP accepted = j + (A.countP accepted + 1) by omega]

/-! ## The moves -/

/-- A step from stage `st` of entry `j`, after the transfers `A`. -/
inductive Move (j : ℕ) (A : List (List Bool)) : Stage → ℕ → Stage → List (List Bool) → Prop
  | start : Move j A .rest j (.transfer 0) A
  | restart : Move j A .again j (.transfer 1) A
  | count (c : ℕ) (h : c < last (isWrite j)) : Move j A (.transfer c) j (.transfer (c + 1)) A
  | accept (a : List Bool) (h : accepted a = true) (h3 : a.length = 3) :
    Move j A (.transfer (last (isWrite j))) j .next (A ++ [a])
  | refuse (a : List Bool) (h : accepted a = false) (h3 : a.length = 3) :
    Move j A (.transfer (last (isWrite j))) j .retry (A ++ [a])
  | advance (h : j + 1 ≠ lutSize) : Move j A .next (j + 1) .rest A
  | finish (h : j + 1 = lutSize) : Move j A .next (j + 1) .finished A
  | retry : Move j A .retry j .again A
  | stay : Move j A .finished j .finished A

/-- The symbol on the bus. -/
def shape (j : ℕ) : Stage → Symbol
  | .transfer c => symbol (isWrite j) (word j) c
  | _ => .idle

/-- What was meant to be carried so far. -/
def line (j : ℕ) (A : List (List Bool)) : Stage → Line
  | .transfer c => lineAt ⟨none, carriedFrom 0 A⟩ (isWrite j) (word j) c
  | _ => ⟨none, carriedFrom 0 A⟩

/-- The entries passed. -/
def passed (j : ℕ) : Stage → ℕ
  | .next => j + 1
  | _ => j

/-- The transfers so far are for the entries before the present one. -/
structure Logged (j : ℕ) (st : Stage) (A : List (List Bool)) : Prop where
  count : A.countP accepted = passed j st
  lt : ∀ k < A.length, (A.take k).countP accepted < lutSize
  three : ∀ a ∈ A, a.length = 3

section Moves

variable {j j' : ℕ} {st st' : Stage} {A A' : List (List Bool)}

theorem symbol_first (wr : Bool) (w : BitVec 24) : symbol wr w 0 = .idle ∧ symbol wr w 1 = .idle := by
  cases wr <;> exact ⟨rfl, rfl⟩

theorem symbol_last (wr : Bool) (w : BitVec 24) : symbol wr w (last wr) = .idle := by
  cases wr <;> rfl

theorem legal_move (h : Move j A st j' st' A') : Symbol.Legal (shape j st) (shape j' st') = true := by
  cases h with
  | start =>
    show Symbol.Legal .idle (symbol _ _ 0) = true
    rw [(symbol_first _ _).1]
    rfl
  | restart =>
    show Symbol.Legal .idle (symbol _ _ 1) = true
    rw [(symbol_first _ _).2]
    rfl
  | count c h => exact I2CController.legal_symbol _ h
  | accept a h h3 =>
    show Symbol.Legal (symbol _ _ _) .idle = true
    rw [symbol_last]
    rfl
  | refuse a h h3 =>
    show Symbol.Legal (symbol _ _ _) .idle = true
    rw [symbol_last]
    rfl
  | _ => rfl

theorem line_move (hl : Logged j st A) (h : Move j A st j' st' A') :
    (line j A st).turn (shape j st) (shape j' st') = line j' A' st' := by
  have hend : ∀ a, st = .transfer (last (isWrite j)) →
      (lineAt ⟨none, carriedFrom 0 A⟩ (isWrite j) (word j) (last (isWrite j))).turn
        (symbol (isWrite j) (word j) (last (isWrite j))) .idle = ⟨none, carriedFrom 0 (A ++ [a])⟩ := by
    rintro a rfl
    have hcount : A.countP accepted = j := hl.count
    rw [symbol_last, I2CController.lineAt_last, carriedFrom_concat, Nat.zero_add, hcount]
    rfl
  cases h with
  | start =>
    show (⟨none, carriedFrom 0 A⟩ : Line).turn .idle (symbol _ _ 0) = _
    rw [(symbol_first _ _).1]
    rfl
  | restart =>
    show (⟨none, carriedFrom 0 A⟩ : Line).turn .idle (symbol _ _ 1) = (⟨none, carriedFrom 0 A⟩ : Line).turn (symbol _ _ 0) _
    rw [(symbol_first _ _).1]
  | accept a h h3 => exact hend a rfl
  | refuse a h h3 => exact hend a rfl
  | _ => rfl

theorem Logged.concat {a : List Bool} (hl : Logged j (.transfer (last (isWrite j))) A) (hj : j < lutSize)
    (h3 : a.length = 3) {st : Stage} (hst : passed j st = j + if accepted a then 1 else 0) : Logged j st (A ++ [a]) := by
  have hcount : A.countP accepted = j := hl.count
  refine ⟨?_, fun k hk => ?_, fun x hx => ?_⟩
  · rw [List.countP_append, hcount, hst, List.countP_singleton]
  · rw [List.length_append] at hk
    have hk' : k < A.length + 1 := hk
    rcases Nat.lt_succ_iff_lt_or_eq.mp hk' with hlt | rfl
    · rw [List.take_append_of_le_length hlt.le]
      exact hl.lt k hlt
    · rw [List.take_left, hcount]
      exact hj
  · rcases List.mem_append.mp hx with hx | hx
    · exact hl.three x hx
    · rw [List.mem_singleton.mp hx]
      exact h3

theorem logged_move (hl : Logged j st A) (hj : st ≠ .finished → j < lutSize) (h : Move j A st j' st' A') :
    Logged j' st' A' := by
  cases h with
  | accept a h h3 => exact hl.concat (hj nofun) h3 (by rw [h]; rfl)
  | refuse a h h3 => exact hl.concat (hj nofun) h3 (by rw [h]; rfl)
  | _ => exact ⟨hl.count, hl.lt, hl.three⟩

end Moves

/-! ## Along a run -/

section Run

variable {ins : ℕ → Bool} {t j : ℕ} {st : Stage}

/-- The levels sampled so far are in the registers of the controller. -/
def Sampling (j : ℕ) (st : Stage) (l : List Bool) (s : I2CAvConfig) : Prop :=
  match st with
  | .transfer c => Sampled (isWrite j) c l (acks (isWrite j) s.uI2CController)
  | .again => Sampled (isWrite j) 0 l (acks (isWrite j) s.uI2CController)
  | _ => True

theorem attempts_of_not_negclk (h : (runOn ins t).i2cNegclk = false) : attempts ins (t + 1) = attempts ins t := by
  simp [attempts, h]

theorem levels_of_not_negclk (h : (runOn ins t).i2cNegclk = false) : levels ins (t + 1) = levels ins t := by
  simp [levels, h]

theorem attempts_of_idle (h : (runOn ins t).setup.mSetupSt ≠ 1 ∨ (runOn ins t).uI2CController.endTransfer = false) :
    attempts ins (t + 1) = attempts ins t := by
  refine if_neg ?_
  rintro ⟨-, h1, h2⟩
  rcases h with h | h
  · exact h h1
  · rw [h] at h2
    cases h2

section Turn

variable (hn : (runOn ins t).i2cNegclk = true)
include hn

theorem attempts_of_end (h1 : (runOn ins t).setup.mSetupSt = 1) (h2 : (runOn ins t).uI2CController.endTransfer = true) :
    attempts ins (t + 1) = attempts ins t ++ [levels ins t] := if_pos ⟨hn, h1, h2⟩

theorem levels_of_rest (h : (runOn ins t).setup.mI2CGo = false) : levels ins (t + 1) = [] := by
  simp [levels, hn, h]

theorem sampling_of_rest (h : (runOn ins t).setup.mI2CGo = false) :
    Sampled (isWrite j) 0 (levels ins (t + 1)) (acks (isWrite j) (runOn ins (t + 1)).uI2CController) := by
  have hacks : acks (isWrite j) (runOn ins (t + 1)).uI2CController = (true, true, true) :=
    (clock_rest (b := ins t) hn h).2 (isWrite j)
  rw [levels_of_rest hn h, hacks]
  exact .none (Nat.zero_le _)

theorem sampling_of_transfer {c : ℕ} {x : BitVec 2} (hat : At x true j (runOn ins t).setup)
    (hwr : (runOn ins t).setup.mI2CWr = isWrite j) (hc : c < last (isWrite j))
    (hh : (runOn ins t).uI2CController.Holds (isWrite j) (word j) c)
    (hs : Sampled (isWrite j) c (levels ins t) (acks (isWrite j) (runOn ins t).uI2CController)) :
    Sampled (isWrite j) (c + 1) (levels ins (t + 1)) (acks (isWrite j) (runOn ins (t + 1)).uI2CController) := by
  have hstep := I2CController.sampled_clock (i := (runOn ins t).controllerIn (ins t)) hh hs hn hat.mI2CGo hwr hc
  have hl : levels ins (t + 1) =
      if IsAck (isWrite j) c then levels ins t ++ [(runOn ins t).sda (ins t)] else levels ins t := by
    show (if (runOn ins t).i2cNegclk then _ else _) = _
    rw [if_pos hn, if_pos hat.mI2CGo, hwr, hh.sdCounter]
  rw [hl]
  exact hstep

/-- **Every step is a move.** -/
theorem move_clock (h : InStage j st (runOn ins t)) (hs : Sampling j st (levels ins t) (runOn ins t)) :
    ∃ j' st', Move j (attempts ins t) st j' st' (attempts ins (t + 1)) ∧ InStage j' st' (runOn ins (t + 1)) ∧
      Sampling j' st' (levels ins (t + 1)) (runOn ins (t + 1)) := by
  have hstay : (runOn ins t).setup.mSetupSt ≠ 1 → attempts ins (t + 1) = attempts ins t := fun h1 =>
    attempts_of_idle (Or.inl h1)
  cases st with
  | rest =>
    rw [hstay (by rw [h.1.mSetupSt]; decide)]
    exact ⟨j, _, .start, clock_of_rest hn h, sampling_of_rest hn h.1.mI2CGo⟩
  | again =>
    have hpos : 0 < last (isWrite j) := by
      cases isWrite j <;> decide
    rw [hstay (by rw [h.1.mSetupSt]; decide)]
    exact ⟨j, _, .restart, clock_of_again hn h, sampling_of_transfer hn h.1 h.2.1 hpos (h.2.2.holds _ _) hs⟩
  | transfer c =>
    rcases Nat.lt_or_eq_of_le h.2.2.1 with hc | rfl
    · have hend : (runOn ins t).uI2CController.endTransfer = false := by
        rw [h.2.2.2.endTransfer]
        exact decide_eq_false (by omega)
      rw [attempts_of_idle (Or.inr hend)]
      exact ⟨j, _, .count c hc, clock_of_transfer hn h hc, sampling_of_transfer hn h.1 h.2.1 hc h.2.2.2 hs⟩
    · have hend : (runOn ins t).uI2CController.endTransfer = true := h.2.2.2.endTransfer.trans (decide_eq_true rfl)
      have hack : (runOn ins t).ack = (levels ins t).any id ∧ (levels ins t).length = 3 := by
        unfold ack
        rw [h.2.1]
        exact I2CController.ack_of_sampled hs
      have hnext : InStage j (if (runOn ins t).ack = false then .next else .retry) (runOn ins (t + 1)) := clock_of_last hn h
      rw [attempts_of_end hn h.1.mSetupSt hend]
      cases ha : (runOn ins t).ack with
      | false =>
        rw [ha] at hnext hack
        exact ⟨j, .next, .accept _ (by unfold accepted; rw [← hack.1]; rfl) hack.2, hnext, trivial⟩
      | true =>
        rw [ha] at hnext hack
        exact ⟨j, .retry, .refuse _ (by unfold accepted; rw [← hack.1]; rfl) hack.2, hnext, trivial⟩
  | next =>
    have hnext : InStage (j + 1) (if j + 1 = lutSize then .finished else .rest) (runOn ins (t + 1)) := clock_of_next hn h
    rw [hstay (by rw [h.1.mSetupSt]; decide)]
    by_cases hj : j + 1 = lutSize
    · rw [if_pos hj] at hnext
      exact ⟨j + 1, _, .finish hj, hnext, trivial⟩
    · rw [if_neg hj] at hnext
      exact ⟨j + 1, _, .advance hj, hnext, trivial⟩
  | retry =>
    rw [hstay (by rw [h.1.mSetupSt]; decide)]
    exact ⟨j, _, .retry, clock_of_retry hn h, sampling_of_rest hn h.1.mI2CGo⟩
  | finished =>
    have hend : (runOn ins t).uI2CController.endTransfer = false := h.2.2.2.endTransfer
    rw [attempts_of_idle (Or.inr hend)]
    exact ⟨j, _, .stay, (clock_of_finished hn h).1, trivial⟩

end Turn

/-! ### The lines -/

theorem scl_eq {s : I2CAvConfig} {b : Bool} {ph : Phase} (h : InStage j st s)
    (hclk : s.mI2CCtrlClk = decide (ph = .high)) : s.scl b = (shape j st).scl ph := by
  have hrest : ∀ e, s.setup.mI2CGo = false ∨ s.uI2CController.sdCounter.toNat = 0 → Idle e s.uI2CController →
      s.scl b = true := by
    rintro e hgo hidle
    have hoff : (s.setup.mI2CGo && I2CController.clocked s.setup.mI2CWr s.uI2CController.sdCounter.toNat) = false := by
      rcases hgo with hgo | hcnt
      · rw [hgo]
        rfl
      · rw [hcnt]
        cases s.setup.mI2CGo <;> cases s.setup.mI2CWr <;> rfl
    show (if s.setup.mI2CGo && I2CController.clocked s.setup.mI2CWr s.uI2CController.sdCounter.toNat then _ else
      s.uI2CController.sclk) = true
    rw [hoff]
    exact hidle.sclk
  cases st with
  | rest => exact hrest _ (Or.inl h.1.mI2CGo) h.2
  | again => exact hrest _ (Or.inr h.2.2.sdCounter) h.2.2
  | transfer c => exact I2CController.i2cSclk_eq (i := s.controllerIn b) h.2.2.2 h.1.mI2CGo h.2.1 h.2.2.1 hclk
  | next => exact hrest _ (Or.inl h.1.mI2CGo) h.2
  | retry => exact hrest _ (Or.inl h.1.mI2CGo) h.2
  | finished => exact hrest _ (Or.inl h.2.2.1) h.2.2.2

theorem sda_eq {s : I2CAvConfig} {b : Bool} (h : InStage j st s) : ∀ v ∈ (shape j st).sda, s.sda b = v := by
  have hrest : ∀ e, Idle e s.uI2CController → ∀ v ∈ Symbol.idle.sda, s.sda b = v := by
    rintro e hidle v ⟨⟩
    show (if I2CController.sdo s.setup.mI2CWr s.uI2CController.sdCounter.toNat then s.uI2CController.i2cBit else b) = true
    rw [hidle.sdCounter, hidle.i2cBit]
    cases s.setup.mI2CWr <;> rfl
  cases st with
  | rest => exact hrest _ h.2
  | again => exact hrest _ h.2.2
  | transfer c => exact I2CController.i2cSdat_eq (i := s.controllerIn b) h.2.2.2 h.2.1 h.2.2.1
  | next => exact hrest _ h.2
  | retry => exact hrest _ h.2
  | finished => exact hrest _ h.2.2.2

theorem heard_lines (t : ℕ) :
    (heard ins t).scl = (runOn ins t).scl (ins t) ∧ (heard ins t).sda = (runOn ins t).sda (ins t) := by
  cases t with
  | zero => exact ⟨rfl, rfl⟩
  | succ t => exact ⟨Monitor.sample_scl, Monitor.sample_sda⟩

/-- Between two steps the data line under a high clock stays. -/
theorem sda_keep (hst : Steady ins) (hn : (runOn ins t).i2cNegclk = false) (hc : (heard ins t).scl = true)
    (hc' : (runOn ins (t + 1)).scl (ins (t + 1)) = true) :
    (runOn ins (t + 1)).sda (ins (t + 1)) = (heard ins t).sda := by
  obtain ⟨hset, hctl⟩ := clock_of_not_negclk (b := ins t) hn
  have hdrives : (runOn ins (t + 1)).drives = (runOn ins t).drives := by
    unfold drives
    rw [runOn_succ, hset, hctl]
  rw [(heard_lines t).1] at hc
  rw [(heard_lines t).2]
  show (if (runOn ins (t + 1)).drives then (runOn ins (t + 1)).uI2CController.i2cBit else ins (t + 1)) =
    if (runOn ins t).drives then (runOn ins t).uI2CController.i2cBit else ins t
  cases hd : (runOn ins t).drives with
  | true =>
    rw [hdrives, hd, runOn_succ, hctl]
    rfl
  | false =>
    rw [hdrives, hd, hst t hc hc' hd (hdrives.trans hd)]
    rfl

/-! ### The invariant -/

/-- The stage in cycle `t` and what has been transferred. -/
structure Staged (ins : ℕ → Bool) (t j : ℕ) (st : Stage) : Prop where
  stage : InStage j st (runOn ins t)
  sampling : Sampling j st (levels ins t) (runOn ins t)
  logged : Logged j st (attempts ins t)

theorem InStage.lt {s : I2CAvConfig} (h : InStage j st s) (hst : st ≠ .finished) : j < lutSize := by
  cases st with
  | finished => exact absurd rfl hst
  | _ => exact h.1.lt

theorem staged_zero : Staged ins 0 0 .rest :=
  ⟨inStage_init, trivial, ⟨rfl, fun k hk => absurd hk (Nat.not_lt_zero k), nofun⟩⟩

theorem staged_turn (h : Staged ins t j st) (hph : phase t = .turn) :
    ∃ j' st', Move j (attempts ins t) st j' st' (attempts ins (t + 1)) ∧ Staged ins (t + 1) j' st' := by
  have hn : (runOn ins t).i2cNegclk = true := (i2cNegclk_eq t).trans (decide_eq_true hph)
  obtain ⟨j', st', hmove, hin, hsamp⟩ := move_clock hn h.stage h.sampling
  exact ⟨j', st', hmove, hin, hsamp, logged_move h.logged h.stage.lt hmove⟩

theorem staged_stay (h : Staged ins t j st) (hph : phase t ≠ .turn) :
    Staged ins (t + 1) j st ∧ attempts ins (t + 1) = attempts ins t := by
  have hn : (runOn ins t).i2cNegclk = false := (i2cNegclk_eq t).trans (decide_eq_false hph)
  obtain ⟨hset, hctl⟩ := clock_of_not_negclk (b := ins t) hn
  have hattempts := attempts_of_not_negclk hn
  refine ⟨⟨inStage_congr hset hctl h.stage, ?_, ?_⟩, hattempts⟩
  · rw [levels_of_not_negclk hn]
    have hsamp := h.sampling
    unfold Sampling at hsamp ⊢
    rw [runOn_succ, hctl]
    exact hsamp
  · rw [hattempts]
    exact h.logged

/-- **The bus follows the two machines.** -/
theorem follows_run (hst : Steady ins) (t : ℕ) : ∃ j st, Staged ins t j st ∧
    Follows (line j (attempts ins t) st) (shape j st) (phase t) (heard ins t) := by
  induction t with
  | zero => exact ⟨0, .rest, staged_zero, follows_init⟩
  | succ t ih =>
    obtain ⟨j, st, hs, hfol⟩ := ih
    have hclk : (runOn ins (t + 1)).mI2CCtrlClk = decide (phase (t + 1) = .high) := mI2CCtrlClk_eq (t + 1)
    by_cases hph : phase t = .turn
    · obtain ⟨j', st', hmove, hs'⟩ := staged_turn hs hph
      refine ⟨j', st', hs', ?_⟩
      rw [hph] at hfol
      rw [phase_turn hph] at hclk
      rw [← line_move hs.logged hmove, phase_turn hph]
      exact follows_turn hfol (legal_move hmove) (scl_eq hs'.stage hclk) (sda_eq hs'.stage)
    · obtain ⟨hs', hattempts⟩ := staged_stay hs hph
      have hn : (runOn ins t).i2cNegclk = false := (i2cNegclk_eq t).trans (decide_eq_false hph)
      refine ⟨j, st, hs', ?_⟩
      rw [hattempts]
      exact follows_stay hfol (phase_next hph) (scl_eq hs'.stage hclk) (sda_eq hs'.stage) (sda_keep hst hn)

/-- What a stage has carried of its entry. -/
theorem messages_line {A : List (List Bool)} {s : I2CAvConfig} (h : Logged j st A) (hin : InStage j st s) :
    ∃ part, part <+: frames (isWrite (A.countP accepted)) (word (A.countP accepted)) ∧
      (A.countP accepted = lutSize → part = []) ∧ (line j A st).messages = carriedFrom 0 A ++ part := by
  cases st with
  | transfer c =>
    have hcount : A.countP accepted = j := h.count
    have hlt := hin.1.lt
    obtain ⟨part, hpart⟩ := I2CController.messages_lineAt_mono ⟨none, carriedFrom 0 A⟩ (isWrite j) (word j) (Nat.zero_le c)
    have hle := I2CController.messages_lineAt_mono ⟨none, carriedFrom 0 A⟩ (isWrite j) (word j) hin.2.2.1
    rw [← hpart, I2CController.lineAt_last] at hle
    rw [hcount]
    exact ⟨part, (List.prefix_append_right_inj _).mp hle, fun hj => absurd hj hlt.ne, hpart.symm⟩
  | _ => exact ⟨[], List.nil_prefix, fun _ => rfl, (List.append_nil _).symm⟩

end Run

end I2CAvConfig

end SuspiciousPackage
