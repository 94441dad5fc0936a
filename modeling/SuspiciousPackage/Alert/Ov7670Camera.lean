import SuspiciousPackage.Alert.Evidence
import SuspiciousPackage.Camera.Ov7670Capture

/-!
# Alert.Ov7670Camera — the camera in front of `ov7670_top`

`ov7670_capture` on the pixel clock of the camera, writing the immediate frame buffer of `Ov7670Top` at the edges of
`clk25`.  A cycle of the whole is one of `aclk`; its inputs say which of the two other clocks have an edge in it.  `sent`
is what the camera has sent since its last `vsync`.  The frame buffer holds the pixels written of it (`Tracks`), and a
cell the reader of a transfer still has to come to is not overwritten by the next frame (`mem_kept`); so a transfer
carries the picture that was being sent when it was triggered (`transfer_of_camera`).
-/

namespace SuspiciousPackage

open Sync

structure Ov7670Camera where
  capture : Ov7670Capture
  top : Ov7670Top

namespace Ov7670Camera

open Ov7670Capture (Decodes arrived presented shown)

structure In where
  aresetn : Bool
  /-- `OV7670_PCLK` has an edge at the end of the cycle. -/
  pclk : Bool
  /-- `clk25` has an edge at the end of the cycle. -/
  clk25 : Bool
  camera : Ov7670Capture.In
  /-- The other inputs; the ones from the camera are not used. -/
  board : Ov7670Top.In
deriving DecidableEq, Repr

/-- The inputs of `ov7670_top` without its camera. -/
def topIn (i : In) (s : Ov7670Camera) : Ov7670Top.In :=
  { i.board with
    ov7670Vsync := i.camera.vsync
    captureAddr := s.capture.address
    captureWren := i.clk25 && s.capture.we
    rgbData16 := s.capture.dout }

/-- One edge of `aclk` with `aresetn` low: the camera port of the frame buffer goes on. -/
def topReset (i : Ov7670Top.In) (s : Ov7670Top) : Ov7670Top where
  system := s.system.clock false (s.systemIn i)
  uFrameBuffer := s.uFrameBuffer.clock frameSize i.captureWren i.captureAddr.toNat i.rgbData16
    (s.system.downsampler.settle false).objDetWren (s.system.downsampler.settle false).tdataAddr.toNat i.frameOob
  downsampledFrameBuffer := s.downsampledFrameBuffer.clock frameSize
    (s.system.downsampler.settle false).objDetWren (s.system.downsampler.settle false).objDetAddr.toNat
    (s.system.downsampler.settle false).objDetPixel true i.bramAddr.toNat i.bramOob

def clock (i : In) (s : Ov7670Camera) : Ov7670Camera where
  capture := if i.pclk then s.capture.clock i.camera else s.capture
  top := if i.aresetn then s.top.clock (topIn i s) else topReset (topIn i s) s.top

/-- The cells of the immediate frame buffer. -/
def mem (s : Ov7670Camera) : ℕ → BitVec 16 := s.top.uFrameBuffer.mem

/-! ## An edge of `aclk` -/

section Edge

variable {i : In} {s : Ov7670Camera} {a : ℕ}

theorem clock_capture (h : i.pclk = true) : (s.clock i).capture = s.capture.clock i.camera := if_pos h

theorem clock_capture_of_not_pclk (h : i.pclk = false) : (s.clock i).capture = s.capture := by
  show (if i.pclk then _ else s.capture) = _
  rw [h]
  rfl

/-- With or without reset the camera writes its pixel. -/
theorem clock_mem : (s.clock i).mem =
    if (i.clk25 && s.capture.we) = true ∧ s.capture.address.toNat < frameSize then
      Function.update s.mem s.capture.address.toNat s.capture.dout
    else s.mem := by
  unfold mem clock
  cases i.aresetn <;> rfl

theorem clock_mem_of_ne (h : a ≠ s.capture.address.toNat) : (s.clock i).mem a = s.mem a := by
  rw [clock_mem]
  split_ifs
  · exact Function.update_of_ne h ..
  · rfl

theorem clock_mem_of_write (hc : i.clk25 = true) (hw : s.capture.we = true) (ha : s.capture.address.toNat = a)
    (hlt : a < frameSize) : (s.clock i).mem a = s.capture.dout := by
  rw [clock_mem, hc, hw, ha, if_pos ⟨rfl, hlt⟩]
  exact Function.update_self ..

theorem clock_mem_of_idle (hc : i.clk25 = false) : (s.clock i).mem = s.mem := by
  rw [clock_mem, hc]
  exact if_neg (by simp)

end Edge

/-! ## What the camera has sent -/

section Run

variable (ins : ℕ → In)

/-- The bytes sampled with `href` since the last `vsync`. -/
def sent : ℕ → List (Bool × BitVec 8)
  | 0 => []
  | t + 1 =>
    if (ins t).pclk then
      if (ins t).camera.vsync then [] else sent t ++ [((ins t).camera.href, (ins t).camera.d)]
    else sent t

/-- The pixel clock is not faster than the clock of the frame buffer, from which the camera derives it. -/
def Paced : Prop :=
  ∀ x y, x < y → (ins x).pclk = true → (ins y).pclk = true → ∃ z, x < z ∧ z ≤ y ∧ (ins z).clk25 = true

/-- Since its last edge the pixel clock waits for the clock of the frame buffer. -/
def Waiting (t : ℕ) : Prop :=
  ∃ x < t, (ins x).pclk = true ∧ ∀ z, x < z → z < t → (ins z).pclk = false ∧ (ins z).clk25 = false

/-- The frame buffer in cycle `t` holds what has been written of the picture. -/
structure Tracks (t : ℕ) (s : Ov7670Camera) : Prop where
  decodes : Decodes (sent ins t) s.capture
  stored : ∀ a < frameSize, ∀ p, (arrived (sent ins t))[a]? = some p → s.mem a = p
  /-- The pixel on the port is written at the first edge of `clk25`. -/
  current : ¬ Waiting ins t → (arrived (sent ins t)).length < frameSize →
    ∀ p ∈ shown (sent ins t) s.capture, s.mem (arrived (sent ins t)).length = p

variable {ins} {t : ℕ} {s : Ov7670Camera}

theorem sent_of_not_pclk (h : (ins t).pclk = false) : sent ins (t + 1) = sent ins t := by
  simp [sent, h]

theorem sent_vsync (h : (ins t).pclk = true) (hv : (ins t).camera.vsync = true) : sent ins (t + 1) = [] := by
  simp [sent, h, hv]

theorem sent_concat (h : (ins t).pclk = true) (hv : (ins t).camera.vsync = false) :
    sent ins (t + 1) = sent ins t ++ [((ins t).camera.href, (ins t).camera.d)] := by
  simp [sent, h, hv]

/-- **The picture goes on, or the next one has come no further than there were cycles.** -/
theorem arrived_prefix {u z : ℕ} (huz : u ≤ z) :
    arrived (sent ins u) <+: arrived (sent ins z) ∨ (sent ins z).length + u + 1 ≤ z := by
  induction z, huz using Nat.le_induction with
  | base => exact Or.inl (List.prefix_refl _)
  | succ z huz ih =>
    cases hpc : (ins z).pclk
    · rw [sent_of_not_pclk hpc]
      exact ih.imp_right fun h => by omega
    · cases hv : (ins z).camera.vsync
      · rw [sent_concat hpc hv, Ov7670Capture.arrived_concat, List.length_append]
        refine ih.imp (fun h => h.trans (Ov7670Capture.pixels_dropLast_prefix _)) fun h => ?_
        show _ + 1 + u + 1 ≤ z + 1
        omega
      · rw [sent_vsync hpc hv]
        refine Or.inr ?_
        show 0 + u + 1 ≤ z + 1
        omega

/-- Right after an edge of the pixel clock. -/
theorem waiting_succ (h : (ins t).pclk = true) : Waiting ins (t + 1) :=
  ⟨t, Nat.lt_succ_self t, h, fun _ h1 h2 => by omega⟩

theorem Waiting.succ (h : Waiting ins t) (hp : (ins t).pclk = false) (hc : (ins t).clk25 = false) :
    Waiting ins (t + 1) := by
  obtain ⟨x, hx, hpx, hno⟩ := h
  refine ⟨x, by omega, hpx, fun z h1 h2 => ?_⟩
  rcases Nat.lt_succ_iff_lt_or_eq.mp h2 with hlt | rfl
  · exact hno z h1 hlt
  · exact ⟨hp, hc⟩

/-- The wait ends with the next edge of the pixel clock at the latest. -/
theorem not_waiting (hp : Paced ins) (h : (ins t).pclk = true) (hc : (ins t).clk25 = false) : ¬ Waiting ins t := by
  rintro ⟨x, hx, hpx, hno⟩
  obtain ⟨z, hxz, hzt, hcz⟩ := hp x t hx hpx h
  rcases Nat.lt_or_eq_of_le hzt with hlt | rfl
  · rw [(hno z hxz hlt).2] at hcz
    cases hcz
  · rw [hc] at hcz
    cases hcz

/-- The address of the write port is beyond the pixels written. -/
theorem address_ne (ht : Tracks ins t s) {a : ℕ} (ha : a < frameSize) (hlen : a < (arrived (sent ins t)).length) :
    a ≠ s.capture.address.toNat := by
  rw [ht.decodes.address]
  omega

theorem stored_clock (ht : Tracks ins t s) {a : ℕ} (ha : a < frameSize) {p : BitVec 16}
    (hp : (arrived (sent ins t))[a]? = some p) : (s.clock (ins t)).mem a = p := by
  obtain ⟨hlen, -⟩ := List.getElem?_eq_some_iff.mp hp
  rw [clock_mem_of_ne (address_ne ht ha hlen)]
  exact ht.stored a ha p hp

/-- The pixel on the port after an edge of `clk25`. -/
theorem current_clock (ht : Tracks ins t s) (hlt : (arrived (sent ins t)).length < frameSize) {p : BitVec 16}
    (hp : p ∈ shown (sent ins t) s.capture) (hw : (ins t).clk25 = true ∨ ¬ Waiting ins t) :
    (s.clock (ins t)).mem (arrived (sent ins t)).length = p := by
  have hshow := hp
  unfold shown at hp
  split_ifs at hp with hwe
  · obtain rfl := List.mem_singleton.mp hp
    have haddr : s.capture.address.toNat = (arrived (sent ins t)).length := by
      rw [ht.decodes.address]
      omega
    cases hc : (ins t).clk25
    · rw [clock_mem_of_idle hc]
      exact ht.current (hw.resolve_left (by simp [hc])) hlt _ hshow
    · exact clock_mem_of_write hc hwe.1 haddr hlt
  · cases hp

theorem tracks_clock (hp : Paced ins) (ht : Tracks ins t s) : Tracks ins (t + 1) (s.clock (ins t)) := by
  cases hpc : (ins t).pclk
  · refine ⟨?_, ?_, ?_⟩
    · rw [sent_of_not_pclk hpc, clock_capture_of_not_pclk hpc]
      exact ht.decodes
    · rw [sent_of_not_pclk hpc]
      exact fun a ha p hp => stored_clock ht ha hp
    · rw [sent_of_not_pclk hpc, clock_capture_of_not_pclk hpc]
      intro hw hlt p hp
      refine current_clock ht hlt hp ?_
      cases hc : (ins t).clk25
      · exact Or.inr fun hw' => hw (hw'.succ hpc hc)
      · exact Or.inl rfl
  · cases hv : (ins t).camera.vsync
    · refine ⟨?_, ?_, fun hw => absurd (waiting_succ hpc) hw⟩
      · rw [sent_concat hpc hv, clock_capture hpc]
        exact Ov7670Capture.decodes_clock ht.decodes hv
      · -- what was on the port has been written
        rw [sent_concat hpc hv, Ov7670Capture.arrived_concat, ht.decodes.shown]
        intro a ha p hpa
        rcases Nat.lt_or_ge a (arrived (sent ins t)).length with hlen | hlen
        · rw [List.getElem?_append_left hlen] at hpa
          exact stored_clock ht ha hpa
        · rw [List.getElem?_append_right hlen] at hpa
          have hmem := List.mem_of_getElem? hpa
          have hle : (shown (sent ins t) s.capture).length ≤ 1 := Ov7670Capture.length_shown_le
          obtain ⟨hlt, -⟩ := List.getElem?_eq_some_iff.mp hpa
          obtain rfl : a = (arrived (sent ins t)).length := by omega
          refine current_clock ht ha hmem ?_
          cases hc : (ins t).clk25
          · exact Or.inr (not_waiting hp hpc hc)
          · exact Or.inl rfl
    · have hd : Decodes [] (s.clock (ins t)).capture := by
        rw [clock_capture hpc]
        exact Ov7670Capture.decodes_vsync hv _
      refine ⟨?_, ?_, fun hw => absurd (waiting_succ hpc) hw⟩
      · rw [sent_vsync hpc hv]
        exact hd
      · rw [sent_vsync hpc hv]
        intro a _ p hpa
        cases hpa

end Run

/-! ## Runs from power-up -/

section PowerUp

/-- The run from power-up of the decoder, with anything in the rest. -/
def runOn (dout : BitVec 16) (we : Bool) (top : Ov7670Top) (ins : ℕ → In) : ℕ → Ov7670Camera :=
  run clock ⟨Ov7670Capture.init dout we, top⟩ ins

variable {dout : BitVec 16} {we : Bool} {top : Ov7670Top} {ins : ℕ → In}

theorem runOn_succ (t : ℕ) : runOn dout we top ins (t + 1) = (runOn dout we top ins t).clock (ins t) := rfl

theorem tracks_runOn (hp : Paced ins) (t : ℕ) : Tracks ins t (runOn dout we top ins t) := by
  induction t with
  | zero =>
    refine ⟨Ov7670Capture.decodes_init dout we, ?_, ?_⟩
    · intro a _ p hpa
      cases hpa
    · intro _ _ p hpa
      simp [shown, sent] at hpa
  | succ t ih => exact tracks_clock hp ih

/-- **A written cell is kept while the next frame cannot have come to it.** -/
theorem mem_kept (hp : Paced ins) {u z a : ℕ} (ha : a < frameSize) {p : BitVec 16}
    (hw : (arrived (sent ins u))[a]? = some p) (huz : u ≤ z) (hz : z ≤ u + a + 1) :
    (runOn dout we top ins z).mem a = p := by
  induction z, huz using Nat.le_induction with
  | base => exact (tracks_runOn hp u).stored a ha p hw
  | succ z huz ih =>
    have ht : Tracks ins z (runOn dout we top ins z) := tracks_runOn hp z
    rw [runOn_succ, clock_mem_of_ne, ih (by omega)]
    rcases arrived_prefix huz with hpre | hle
    · obtain ⟨hlen, -⟩ := List.getElem?_eq_some_iff.mp hw
      exact address_ne ht ha (hlen.trans_le hpre.length_le)
    · have hlen := Ov7670Capture.length_arrived_le (sent ins z)
      rw [ht.decodes.address]
      omega

/-! ### Transfers -/

section Transfer

variable {v : ℕ}

/-- The rest of the board from cycle `v` on. -/
def tops (r : ℕ → Ov7670Camera) (v t : ℕ) : Ov7670Top := (r (v + t)).top

/-- Once out of reset, the rest of the board runs on what the decoder puts on its port. -/
theorem tops_eq (hhigh : ∀ z, v < z → (ins z).aresetn = true) :
    tops (runOn dout we top ins) (v + 1) = Ov7670Top.runFrom (runOn dout we top ins (v + 1)).top
      fun t => topIn (ins (v + 1 + t)) (runOn dout we top ins (v + 1 + t)) := by
  funext t
  induction t with
  | zero => rfl
  | succ t ih =>
    rw [Ov7670Top.runFrom_succ, ← ih]
    show (if (ins (v + 1 + t)).aresetn then _ else _) = _
    rw [hhigh _ (by omega)]
    rfl

theorem sound_of_reset (dout : BitVec 16) (we : Bool) (top : Ov7670Top) (hlow : (ins v).aresetn = false) :
    (runOn dout we top ins (v + 1)).top.system.Sound ∧ (runOn dout we top ins (v + 1)).top.system.beat = none := by
  have htop : (runOn dout we top ins (v + 1)).top.system =
      (runOn dout we top ins v).top.system.clock false
        ((runOn dout we top ins v).top.systemIn (topIn (ins v) (runOn dout we top ins v))) := by
    show (if (ins v).aresetn then _ else _ : Ov7670Top).system = _
    rw [hlow]
    rfl
  rw [htop]
  exact ⟨System.sound_reset _ _, rfl⟩

/-- A transfer that begins has been triggered in the cycle before, with all pixels but the last one written. -/
theorem arrived_of_begins (hp : Paced ins) (hlow : (ins v).aresetn = false)
    (hhigh : ∀ z, v < z → (ins z).aresetn = true) {t : ℕ}
    (hb : System.Begins (Ov7670Top.systems (tops (runOn dout we top ins) (v + 1))) t) :
    (arrived (sent ins (v + t))).length = frameSize - 1 := by
  obtain ⟨hs, hbeat⟩ := sound_of_reset dout we top hlow
  obtain ⟨hon, hoff⟩ := hb
  cases t with
  | zero =>
    have hidle : (runOn dout we top ins (v + 1)).top.system.downsampler.transfer = false :=
      System.beat_eq_none_iff.mp hbeat
    have hbusy : (runOn dout we top ins (v + 1)).top.system.downsampler.transfer = true := hon
    rw [hidle] at hbusy
    cases hbusy
  | succ t =>
    have hidle : (tops (runOn dout we top ins) (v + 1) t).system.downsampler.transfer = false := hoff t rfl
    have hinv : (tops (runOn dout we top ins) (v + 1) t).system.downsampler.Inv := by
      rw [tops_eq hhigh]
      exact (Ov7670Top.sound_run hs t).inv
    have hstep : (tops (runOn dout we top ins) (v + 1) (t + 1)).system.downsampler.transfer = true := hon
    rw [tops_eq hhigh, Ov7670Top.runFrom_succ, ← tops_eq hhigh] at hstep
    by_contra hlen
    have ht : Tracks ins (v + 1 + t) (runOn dout we top ins (v + 1 + t)) := tracks_runOn hp _
    -- with the address elsewhere the downsampler stays idle
    have hno : ¬ Downsampler.Trigger
        (System.downsamplerIn ((tops (runOn dout we top ins) (v + 1) t).systemIn
          (topIn (ins (v + 1 + t)) (runOn dout we top ins (v + 1 + t)))))
        (tops (runOn dout we top ins) (v + 1) t).system.downsampler := by
      rintro ⟨-, -, haddr⟩
      have haddr' : (runOn dout we top ins (v + 1 + t)).capture.address.toNat = frameSize - 1 := haddr
      rw [ht.decodes.address] at haddr'
      have hfs := frameSize_eq
      refine hlen ?_
      rw [show v + (t + 1) = v + 1 + t by omega]
      omega
    have hclk := Downsampler.clock_hold hidle (hinv.idle hidle) hno
    have hstay := congrArg Downsampler.transfer hclk
    rw [hidle] at hstay
    exact absurd (hstep.symm.trans hstay) (by simp)

/-- What has been written of a picture by the time the reader comes to a cell is what it transfers. -/
theorem pixelAt_of_arrived (hp : Paced ins) (hlow : (ins v).aresetn = false)
    (hhigh : ∀ z, v < z → (ins z).aresetn = true) {t : ℕ}
    (hb : System.Begins (Ov7670Top.systems (tops (runOn dout we top ins) (v + 1))) t) {u a : ℕ} (hu : v + t ≤ u)
    (hua : u ≤ v + 1 + t + a) (ha : a < frameSize) (hlen : a < (arrived (sent ins u)).length) :
    (arrived (sent ins u))[a]? = some (Ov7670Top.pixelAt (tops (runOn dout we top ins) (v + 1)) t a) := by
  obtain ⟨hs, hnone⟩ := sound_of_reset dout we top hlow
  rw [tops_eq hhigh] at hb
  have hbeat := (Ov7670Top.begins_run hs hnone).mp hb
  have hread : Ov7670Top.pixelAt (tops (runOn dout we top ins) (v + 1)) t a =
      (runOn dout we top ins (v + 1 + (t + a))).mem a := by
    rw [tops_eq hhigh, Ov7670Top.pixelAt_eq hs hbeat ha, ← tops_eq hhigh]
    rfl
  have hget := List.getElem?_eq_getElem hlen
  rw [hread, mem_kept hp ha hget (by omega) (by omega)]
  exact hget

end Transfer

/-- **A transfer carries the picture the camera is sending**, from power-up and any state of the rest of the board, for
every transfer after the last reset.  With a pixel clock not faster than that of the frame buffer, all pixels but the last
one have been written when the transfer is triggered, and those are its pixels, whatever the camera sends from then on;
and as soon as the whole picture has been written before the reader comes to the last cell, it is the transferred one. -/
theorem transfer_of_camera (dout : BitVec 16) (we : Bool) (top : Ov7670Top) (ins : ℕ → In) (r : ℕ → Ov7670Camera)
    (hr : r = runOn dout we top ins) (hp : Paced ins) (v : ℕ) (hlow : (ins v).aresetn = false)
    (hhigh : ∀ z, v < z → (ins z).aresetn = true) (t : ℕ)
    (hb : System.Begins (Ov7670Top.systems (tops r (v + 1))) t) :
    (arrived (sent ins (v + t))).length = frameSize - 1 ∧
    (∀ a < frameSize - 1, (arrived (sent ins (v + t)))[a]? = some (Ov7670Top.pixelAt (tops r (v + 1)) t a)) ∧
    ∀ u, v + t ≤ u → u ≤ v + 1 + t + (frameSize - 1) → frameSize ≤ (arrived (sent ins u)).length →
      ∀ a < frameSize, (arrived (sent ins u))[a]? = some (Ov7670Top.pixelAt (tops r (v + 1)) t a) := by
  subst hr
  have hfs := frameSize_eq
  have hlen := arrived_of_begins hp hlow hhigh hb
  have hfirst : ∀ a < frameSize - 1, (arrived (sent ins (v + t)))[a]? =
      some (Ov7670Top.pixelAt (tops (runOn dout we top ins) (v + 1)) t a) :=
    fun a ha => pixelAt_of_arrived hp hlow hhigh hb le_rfl (by omega) (by omega) (by omega)
  refine ⟨hlen, hfirst, fun u h1 h2 hfull a ha => ?_⟩
  rcases Nat.lt_or_ge a (frameSize - 1) with hlt | hge
  · -- no frame has begun since, or it could not be complete
    rcases arrived_prefix h1 with hpre | hle
    · obtain ⟨rest, hrest⟩ := hpre
      rw [← hrest, List.getElem?_append_left (by omega)]
      exact hfirst a hlt
    · have hle' := Ov7670Capture.length_arrived_le (sent ins u)
      omega
  · exact pixelAt_of_arrived hp hlow hhigh hb h1 (by omega) ha (by omega)

end PowerUp

end Ov7670Camera

end SuspiciousPackage
