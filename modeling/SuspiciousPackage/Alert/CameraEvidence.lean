import SuspiciousPackage.Alert.Ov7670Camera

/-!
# Alert.CameraEvidence — the frozen image shows what the camera sent

The image an alert freezes is the last transfer completed before it, and this transfer carries the picture the camera was
sending when it was triggered.  So from the pins of the camera to the frozen buffer nothing is lost or moved
(`evidence_of_camera`), the first and the last cell aside.
-/

namespace SuspiciousPackage

open Sync

namespace Ov7670Camera

open Ov7670Capture (Decodes arrived presented shown pixels)

/-- The inputs of the rest of the board from cycle `v` on. -/
def topIns (r : ℕ → Ov7670Camera) (ins : ℕ → In) (v t : ℕ) : Ov7670Top.In := topIn (ins (v + t)) (r (v + t))

/-- For an alert decided in cycle `d`, the frozen cells whose gate was open hold the pixels sent for the last transfer,
and the gate was open for all of them if the threshold has not been changed since. -/
theorem frozen_of_alerted {dout : BitVec 16} {we : Bool} {top : Ov7670Top} {ins : ℕ → In} {r : ℕ → Ov7670Camera}
    (hr : r = runOn dout we top ins) (hp : Paced ins) {v : ℕ} (hlow : (ins v).aresetn = false)
    (hhigh : ∀ z, v < z → (ins z).aresetn = true) {d t : ℕ}
    (ha : Ov7670Top.Alerted (topIns r ins (v + 1)) (tops r (v + 1)) d t) :
    ∃ t₀, System.LastTransfer (Ov7670Top.systems (tops r (v + 1))) t₀ (d + 1) ∧
      (∀ a, 0 < a → a < frameSize - 1 →
        (tops r (v + 1) (t₀ + a + 2)).objDetSusp (topIns r ins (v + 1) (t₀ + a + 2)) = false →
        (arrived (sent ins (v + t₀)))[a]? = some ((tops r (v + 1) t).kept a)) ∧
      ((∀ x, t₀ ≤ x → x ≤ d → (ins (v + 1 + x)).board.suspicionThres = (ins (v + 1 + d)).board.suspicionThres) →
        ∀ a, a < frameSize - 1 →
          (tops r (v + 1) (t₀ + a + 2)).objDetSusp (topIns r ins (v + 1) (t₀ + a + 2)) = false) := by
  subst hr
  have hfs := frameSize_eq
  obtain ⟨hs, hnone⟩ := sound_of_reset dout we top hlow
  have hoff : (runOn dout we top ins (v + 1)).top.system.InPhase .off ∧
      (runOn dout we top ins (v + 1)).top.system.datapath.diffCnt = 0 ∧
      (runOn dout we top ins (v + 1)).top.system.datapath.suspicion = 0 := by
    show (if (ins v).aresetn then _ else _ : Ov7670Top).system.InPhase .off ∧
      (if (ins v).aresetn then _ else _ : Ov7670Top).system.datapath.diffCnt = 0 ∧
      (if (ins v).aresetn then _ else _ : Ov7670Top).system.datapath.suspicion = 0
    rw [hlow]
    exact ⟨System.inPhase_reset _ _, rfl, rfl⟩
  have htops : tops (runOn dout we top ins) (v + 1) = Ov7670Top.runFrom (runOn dout we top ins (v + 1)).top
      (topIns (runOn dout we top ins) ins (v + 1)) := tops_eq hhigh
  have hcam : ∀ {x : ℕ}, System.Begins (Ov7670Top.systems (tops (runOn dout we top ins) (v + 1))) x →
      ∀ a < frameSize - 1, (arrived (sent ins (v + x)))[a]? =
        some (Ov7670Top.pixelAt (tops (runOn dout we top ins) (v + 1)) x a) := fun hx a hlt =>
    pixelAt_of_arrived hp hlow hhigh hx le_rfl (by omega) (by omega) (by
      rw [arrived_of_begins hp hlow hhigh hx]
      exact hlt)
  rw [htops] at ha hcam ⊢
  obtain ⟨t₁, t₀, rfl, hb, hl⟩ := Ov7670Top.lastTransfer_of_decision hs hoff.1 hnone ha.decision
  refine ⟨t₀, hl, fun a h0 hlt hgate => ?_, fun hfix a hlt => ?_⟩
  · rw [Ov7670Top.kept_pos_of_alerted hs hnone hb hl ha h0 (by omega), hgate]
    exact hcam hl.1.1 a hlt
  obtain ⟨hle, -⟩ := Ov7670Top.idle_run hs hnone hb hl
  exact Ov7670Top.susp_low_of_fixed hs hnone hoff.2 hb hl ha.low (by omega) (by omega)
    (hfix (t₀ + a + 2) (by omega) (by omega))

/-- **From the camera to the frozen image**, from power-up and any state of the rest of the board.  For an alert decided
in cycle `d` after the last reset and still up in cycle `t`, the frozen cells between the first and the last one hold the
pixels the camera had sent at those positions when the last transfer completed before the alert was triggered: each one
for which the gate was open, and so all of them if the suspicion threshold has not been changed since that transfer. -/
theorem evidence_of_camera (dout : BitVec 16) (we : Bool) (top : Ov7670Top) (ins : ℕ → In) (r : ℕ → Ov7670Camera)
    (hr : r = runOn dout we top ins) (hp : Paced ins) (v : ℕ) (hlow : (ins v).aresetn = false)
    (hhigh : ∀ z, v < z → (ins z).aresetn = true) (d t : ℕ)
    (ha : Ov7670Top.Alerted (topIns r ins (v + 1)) (tops r (v + 1)) d t) :
    ∃ t₀, System.LastTransfer (Ov7670Top.systems (tops r (v + 1))) t₀ (d + 1) ∧
      (∀ a, 0 < a → a < frameSize - 1 →
        (tops r (v + 1) (t₀ + a + 2)).objDetSusp (topIns r ins (v + 1) (t₀ + a + 2)) = false →
        (arrived (sent ins (v + t₀)))[a]? = some ((tops r (v + 1) t).kept a)) ∧
      ((∀ x, t₀ ≤ x → x ≤ d → (ins (v + 1 + x)).board.suspicionThres = (ins (v + 1 + d)).board.suspicionThres) →
        ∀ a, 0 < a → a < frameSize - 1 → (arrived (sent ins (v + t₀)))[a]? = some ((tops r (v + 1) t).kept a)) := by
  obtain ⟨t₀, hl, hopen, hgate⟩ := frozen_of_alerted hr hp hlow hhigh ha
  exact ⟨t₀, hl, hopen, fun hfix a h0 hlt => hopen a h0 hlt (hgate hfix a hlt)⟩

/-! ### A camera that stops on a dark picture -/

section DarkCamera

/-- The last cycle of the reset. -/
@[irreducible] def darkReset : ℕ := 2 * frameSize - 3

/-- The cycles in which the camera runs: two for each pixel but the last one, and two more. -/
def darkCycles : ℕ := darkReset + 3

theorem darkCycles_eq : darkCycles = 2 * frameSize := by
  have hfs := frameSize_eq
  unfold darkCycles darkReset
  omega

/-- A dark blue picture, sent up to its last pixel; the camera then stops, and the board is let out of reset just before
the address of the last pixel appears on the port. -/
def darkCamera (t : ℕ) : In where
  aresetn := decide (darkReset < t)
  pclk := decide (t < darkCycles)
  clk25 := true
  camera := ⟨false, true, if t % 2 = 0 then 0 else 1⟩
  board := Ov7670Top.darkScene 0 (t - (darkReset + 1))

def darkCameraRun : ℕ → Ov7670Camera := runOn 0 false Ov7670Top.darkStart darkCamera

theorem paced_darkCamera : Paced darkCamera := fun _ y hxy _ _ => ⟨y, hxy, le_rfl, rfl⟩

theorem tracks_darkCamera (t : ℕ) : Tracks darkCamera t (darkCameraRun t) := tracks_runOn paced_darkCamera t

theorem sent_darkCamera_succ {t : ℕ} (h : t < darkCycles) :
    sent darkCamera (t + 1) = sent darkCamera t ++ [(true, if t % 2 = 0 then 0 else 1)] :=
  sent_concat (decide_eq_true h) rfl

/-- While the camera runs every second byte completes a pixel. -/
theorem pairs_darkCamera {t : ℕ} (h : t ≤ darkCycles) :
    Pairing.opened (sent darkCamera t) = (if t % 2 = 0 then none else some 0) ∧
      Pairing.pairs (sent darkCamera t) = List.replicate (t / 2) (0, 1) := by
  induction t with
  | zero => exact ⟨rfl, rfl⟩
  | succ t ih =>
    obtain ⟨hopen, hpairs⟩ := ih (by omega)
    rw [sent_darkCamera_succ (by omega), Pairing.opened_concat, Pairing.pairs_concat, hopen, hpairs]
    rcases Nat.mod_two_eq_zero_or_one t with hm | hm
    · have hodd : (t + 1) % 2 = 1 := by omega
      have hhalf : (t + 1) / 2 = t / 2 := by omega
      simp [hm, hodd, hhalf]
    · have heven : (t + 1) % 2 = 0 := by omega
      have hhalf : (t + 1) / 2 = t / 2 + 1 := by omega
      simp [hm, heven, hhalf, List.replicate_succ']

theorem pixels_darkCamera {t : ℕ} (h : t ≤ darkCycles) : pixels (sent darkCamera t) = List.replicate (t / 2) 1 := by
  unfold pixels
  rw [(pairs_darkCamera h).2, List.map_replicate]
  rfl

theorem presented_darkCamera {t : ℕ} (h : t ≤ darkCycles) :
    presented (sent darkCamera t) = List.replicate ((t - 1) / 2) 1 := by
  cases t with
  | zero => rfl
  | succ t =>
    rw [sent_darkCamera_succ (by omega), Ov7670Capture.presented_concat]
    exact pixels_darkCamera (by omega)

theorem arrived_darkCamera {t : ℕ} (h : t ≤ darkCycles) :
    arrived (sent darkCamera t) = List.replicate ((t - 2) / 2) 1 := by
  cases t with
  | zero => rfl
  | succ t =>
    rw [sent_darkCamera_succ (by omega), Ov7670Capture.arrived_concat]
    exact presented_darkCamera (by omega)

/-- Once stopped the decoder stays as it is. -/
theorem darkCameraRun_stopped {t : ℕ} (h : darkCycles ≤ t) :
    sent darkCamera t = sent darkCamera darkCycles ∧ (darkCameraRun t).capture = (darkCameraRun darkCycles).capture := by
  induction t, h using Nat.le_induction with
  | base => exact ⟨rfl, rfl⟩
  | succ t h ih =>
    have hp : (darkCamera t).pclk = false := decide_eq_false (by omega)
    rw [sent_of_not_pclk hp, ← ih.1, ← ih.2]
    exact ⟨rfl, clock_capture_of_not_pclk hp⟩

theorem darkCameraRun_min (t : ℕ) :
    sent darkCamera t = sent darkCamera (min t darkCycles) ∧
      (darkCameraRun t).capture = (darkCameraRun (min t darkCycles)).capture := by
  rcases Nat.le_total t darkCycles with h | h
  · rw [min_eq_left h]
    exact ⟨rfl, rfl⟩
  · rw [min_eq_right h]
    exact darkCameraRun_stopped h

theorem address_darkCamera (t : ℕ) : (darkCameraRun t).capture.address.toNat = (min t darkCycles - 2) / 2 := by
  have hd := (tracks_darkCamera t).decodes.address
  have hdc := darkCycles_eq
  rw [(darkCameraRun_min t).1, arrived_darkCamera (min_le_right _ _), List.length_replicate] at hd
  omega

/-- A pixel on the port is dark. -/
theorem dout_darkCamera {t : ℕ} (h : (darkCameraRun t).capture.we = true) : (darkCameraRun t).capture.dout = 1 := by
  rw [(darkCameraRun_min t).2] at h ⊢
  generalize hm : min t darkCycles = m at h
  have hle : m ≤ darkCycles := hm ▸ min_le_right _ _
  have hd := (tracks_darkCamera m).decodes.shown
  cases m with
  | zero => cases h
  | succ m =>
    rw [presented_darkCamera hle] at hd
    refine List.eq_of_mem_replicate (n := (m + 1 - 1) / 2) ?_
    rw [hd]
    refine List.mem_append_right _ ?_
    unfold shown
    rw [if_pos ⟨h, by rw [sent_darkCamera_succ (by omega)]; simp⟩]
    exact List.mem_singleton_self _

theorem mem_darkCamera (t : ℕ) : (darkCameraRun t).mem = fun _ => 1 := by
  induction t with
  | zero => rfl
  | succ t ih =>
    show ((darkCameraRun t).clock (darkCamera t)).mem = _
    rw [clock_mem, ih]
    split_ifs with hw
    · rw [Bool.and_eq_true] at hw
      rw [dout_darkCamera hw.1.2]
      exact Function.update_eq_self _ _
    · rfl

/-! The board out of reset sees what it sees of a camera that has stopped. -/

/-- Only the address of the last pixel counts. -/
theorem clock_captureAddr {i : System.In} {s : System} {c : BitVec 17}
    (h : i.captureAddr.toNat = frameSize - 1 ↔ c.toNat = frameSize - 1) :
    s.clock true { i with captureAddr := c } = s.clock true i := by
  have htr : ∀ d : Downsampler, Downsampler.Trigger (System.downsamplerIn { i with captureAddr := c }) d ↔
      Downsampler.Trigger (System.downsamplerIn i) d := fun d =>
    and_congr_right fun _ => and_congr_right fun _ => h.symm
  have hd : s.downsampler.clock true (System.downsamplerIn { i with captureAddr := c }) =
      s.downsampler.clock true (System.downsamplerIn i) := by
    unfold Downsampler.clock
    exact if_congr Iff.rfl rfl (if_congr (htr _) rfl rfl)
  show System.mk _ _ = System.mk _ _
  rw [hd]
  rfl

/-- What the frame buffer shows next depends on its cells and on the downsampler. -/
theorem doutb_congr {i i' : Ov7670Top.In} {s s' : Ov7670Top} (hs : s.system = s'.system)
    (hd : s.uFrameBuffer.doutb = s'.uFrameBuffer.doutb) (hm : s.uFrameBuffer.mem = s'.uFrameBuffer.mem)
    (ho : i.frameOob = i'.frameOob) : (s.clock i).uFrameBuffer.doutb = (s'.clock i').uFrameBuffer.doutb := by
  unfold Ov7670Top.clock DualRam.clock Ov7670Top.objDetWren
  rw [hs, hd, hm, ho]

/-- In reset the board stays as it was at power-up. -/
theorem darkCameraRun_reset {t : ℕ} (h : t ≤ darkReset + 1) :
    (darkCameraRun t).top.system = System.init ∧ (darkCameraRun t).top.uFrameBuffer.doutb = 0 := by
  induction t with
  | zero => exact ⟨rfl, rfl⟩
  | succ t ih =>
    obtain ⟨hsys, hdout⟩ := ih (by omega)
    have hrst : (darkCamera t).aresetn = false := decide_eq_false (by omega)
    have hclk : (darkCameraRun (t + 1)).top =
        topReset (topIn (darkCamera t) (darkCameraRun t)) (darkCameraRun t).top := by
      show (if (darkCamera t).aresetn then _ else _) = _
      rw [hrst]
      rfl
    rw [hclk]
    refine ⟨?_, hdout⟩
    show (darkCameraRun t).top.system.clock false _ = _
    rw [hsys]
    rfl

theorem tops_darkCamera (t : ℕ) :
    (tops darkCameraRun (darkReset + 1) t).system = (Ov7670Top.darkRun 0 t).system ∧
      (tops darkCameraRun (darkReset + 1) t).uFrameBuffer.doutb = (Ov7670Top.darkRun 0 t).uFrameBuffer.doutb := by
  induction t with
  | zero => exact darkCameraRun_reset le_rfl
  | succ t ih =>
    obtain ⟨hsys, hdout⟩ := ih
    have hdc := darkCycles_eq
    have hdr : darkCycles = darkReset + 3 := rfl
    have hfs := frameSize_eq
    have hrst : (darkCamera (darkReset + 1 + t)).aresetn = true := decide_eq_true (by omega)
    have hboard : (darkCamera (darkReset + 1 + t)).board = Ov7670Top.darkScene 0 t :=
      congrArg (Ov7670Top.darkScene 0) (show darkReset + 1 + t - (darkReset + 1) = t by omega)
    have hclk : tops darkCameraRun (darkReset + 1) (t + 1) = (tops darkCameraRun (darkReset + 1) t).clock
        (topIn (darkCamera (darkReset + 1 + t)) (darkCameraRun (darkReset + 1 + t))) := by
      show (if (darkCamera (darkReset + 1 + t)).aresetn then _ else _) = _
      rw [hrst]
      rfl
    have haddr : (darkCameraRun (darkReset + 1 + t)).capture.address.toNat = frameSize - 1 ↔
        (Ov7670Top.darkScene 0 t).captureAddr.toNat = frameSize - 1 := by
      rw [address_darkCamera]
      show _ ↔ (if t < 2 then (0 : BitVec 17) else 76799).toNat = frameSize - 1
      split_ifs with ht
      · show _ ↔ 0 = frameSize - 1
        omega
      · show _ ↔ 76799 = frameSize - 1
        omega
    have hin : (tops darkCameraRun (darkReset + 1) t).systemIn
          (topIn (darkCamera (darkReset + 1 + t)) (darkCameraRun (darkReset + 1 + t))) =
        { (Ov7670Top.darkRun 0 t).systemIn (Ov7670Top.darkScene 0 t) with
          captureAddr := (darkCameraRun (darkReset + 1 + t)).capture.address } := by
      unfold Ov7670Top.systemIn topIn
      rw [hboard, hdout]
      rfl
    rw [hclk]
    constructor
    · show (tops darkCameraRun (darkReset + 1) t).system.clock true _ = (Ov7670Top.darkRun 0 t).system.clock true _
      rw [hin, hsys]
      exact clock_captureAddr haddr.symm
    · refine doutb_congr hsys hdout ?_ (show (darkCamera (darkReset + 1 + t)).board.frameOob = _ by rw [hboard])
      exact (mem_darkCamera _).trans (Ov7670Top.darkRun_mem 0 t).symm

/-- The third decision of the detector raises the alert. -/
theorem alerted_darkCamera : Ov7670Top.Alerted (topIns darkCameraRun darkCamera (darkReset + 1))
    (tops darkCameraRun (darkReset + 1)) (System.beginCycle 3 + 1) (System.beginCycle 3 + 2) := by
  have ha := Ov7670Top.alerted_dark 0
  have hboard : ∀ t, (darkCamera (darkReset + 1 + t)).board = Ov7670Top.darkScene 0 t := fun t =>
    congrArg (Ov7670Top.darkScene 0) (show darkReset + 1 + t - (darkReset + 1) = t by omega)
  have hsusp : ∀ t, (tops darkCameraRun (darkReset + 1) t).objDetSusp (topIns darkCameraRun darkCamera (darkReset + 1) t) =
      (Ov7670Top.darkRun 0 t).objDetSusp (Ov7670Top.darkScene 0 t) := by
    intro t
    rw [Ov7670Top.objDetSusp_eq, Ov7670Top.objDetSusp_eq, (tops_darkCamera t).1, ← hboard t]
    rfl
  have hthr : ∀ t, Ov7670Top.thresholds (topIns darkCameraRun darkCamera (darkReset + 1) t) = ⟨0, 0, 1⟩ := fun _ => rfl
  refine ⟨?_, ?_, ha.after, fun x h1 h2 => ?_, fun x h1 h2 => ?_⟩
  · rw [Ov7670Top.frameStart_iff, (tops_darkCamera _).1]
    exact Ov7670Top.frameStart_iff.mp ha.decision
  · rw [hsusp]
    exact ha.low
  · rw [hsusp]
    exact ha.high x h1 h2
  · rw [hthr, hthr]

theorem begins_darkCamera :
    System.Begins (Ov7670Top.systems (tops darkCameraRun (darkReset + 1))) (System.beginCycle 0) := by
  have heq : Ov7670Top.systems (tops darkCameraRun (darkReset + 1)) = Ov7670Top.systems (Ov7670Top.darkRun 0) :=
    funext fun t => (tops_darkCamera t).1
  have hbeat : (Ov7670Top.darkRun 0 (System.beginCycle 0)).system.beat = some 0 := by
    rw [Ov7670Top.darkRun_system]
    exact System.beat_beginCycle _ _ 0
  rw [heq]
  exact (Ov7670Top.begins_run System.sound_init rfl).mpr hbeat

end DarkCamera

/-- The first transfer of the dark picture is dark. -/
theorem transfer_of_camera_dark :
    (arrived (sent darkCamera (darkReset + System.beginCycle 0))).length = frameSize - 1 ∧
      ∀ a < frameSize - 1, Ov7670Top.pixelAt (tops darkCameraRun (darkReset + 1)) (System.beginCycle 0) a = 1 := by
  have hdc := darkCycles_eq
  have hfs := frameSize_eq
  obtain ⟨hlen, hpix, -⟩ := transfer_of_camera 0 false Ov7670Top.darkStart darkCamera darkCameraRun rfl paced_darkCamera
    darkReset (decide_eq_false (lt_irrefl _)) (fun z hz => decide_eq_true hz) (System.beginCycle 0) begins_darkCamera
  refine ⟨hlen, fun a ha => ?_⟩
  have hget := hpix a ha
  rw [(darkCameraRun_min _).1, arrived_darkCamera (min_le_right _ _), List.getElem?_replicate] at hget
  split_ifs at hget
  exact (Option.some.inj hget).symm

/-- The image frozen by the alert on the dark picture is dark. -/
theorem evidence_of_camera_dark :
    (∃ t₀, System.LastTransfer (Ov7670Top.systems (tops darkCameraRun (darkReset + 1))) t₀ (System.beginCycle 3 + 2)) ∧
      ∀ a, 0 < a → a < frameSize - 1 → (tops darkCameraRun (darkReset + 1) (System.beginCycle 3 + 2)).kept a = 1 := by
  obtain ⟨t₀, hlast, -, hall⟩ := evidence_of_camera 0 false Ov7670Top.darkStart darkCamera darkCameraRun rfl paced_darkCamera
    darkReset (decide_eq_false (lt_irrefl _)) (fun z hz => decide_eq_true hz) _ _ alerted_darkCamera
  refine ⟨⟨t₀, hlast⟩, fun a h0 ha => ?_⟩
  have hthr : ∀ t, (darkCamera t).board.suspicionThres = 1 := fun _ => rfl
  have hget := hall (fun _ _ _ => (hthr _).trans (hthr _).symm) a h0 ha
  rw [(darkCameraRun_min _).1, arrived_darkCamera (min_le_right _ _), List.getElem?_replicate] at hget
  split_ifs at hget
  exact (Option.some.inj hget).symm

end Ov7670Camera

end SuspiciousPackage
