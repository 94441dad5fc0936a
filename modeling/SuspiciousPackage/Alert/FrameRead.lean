import SuspiciousPackage.Alert.Ov7670Top
import SuspiciousPackage.Axi.Program
import SuspiciousPackage.Broadcast.Send
import SuspiciousPackage.Camera.S00Axi

/-!
# Alert.FrameRead — the software reads the downsampled frame

`ov7670_top` with its register slave, and the loop in which the applications copy `downsampled_frame_buffer` to
`frame_buf`, as a program on its bus.  One pass writes the address of a pixel and reads the pixel back;
`completes_pixel` is its rule, and `frame_read` says what the loop leaves in `frame_buf`.
-/

namespace SuspiciousPackage

open Sync Axi

/-! ## `ov7670_top` on the bus -/

/-- The buffers, the downsampler and the detector with the slave that reads the downsampled frame. -/
structure Ov7670Soc where
  top : Ov7670Top
  s00AxiInst : S00Axi

namespace Ov7670Soc

/-- The buffer is read at the address in the register of the slave. -/
def device : Device 4 Ov7670Soc Ov7670Top.In where
  clock m i s :=
    { top := s.top.clock { i with bramAddr := s.s00AxiInst.bramAddr }
      s00AxiInst := s.s00AxiInst.clock true m s.top.downsampledFrameBuffer.doutb }
  axi s := s.s00AxiInst.axi
  regDataOut s := s.s00AxiInst.regDataOut
  axi_clock _ _ _ := rfl

/-- `downsampler_bram` -/
def bramAddrReg : BitVec 4 := 0

/-- `downsampler_bram+1` -/
def bramDataReg : BitVec 4 := 4

/-- The passes of the loop for the pixels `is`. -/
def readPixels (signed : Bool) : List ℕ → FrameBuf → Program 4 FrameBuf
  | [], frameBuf => .done frameBuf
  | i :: is, frameBuf =>
    .write bramAddrReg (BitVec.ofNat 32 i) <| .read bramDataReg fun pixel32 =>
      readPixels signed is (readOutPixel signed (fun _ => pixel32) frameBuf i)

/-- The loop over the frame. -/
def readFrame (signed : Bool) (frameBuf : FrameBuf) : Program 4 FrameBuf :=
  readPixels signed (List.range frameSize) frameBuf

/-- A pass depends on the word of its own pixel alone. -/
theorem readOutPixel_congr {signed : Bool} {read read' : ℕ → BitVec 32} {frameBuf : FrameBuf} {i : ℕ}
    (h : read i = read' i) :
    readOutPixel signed read frameBuf i = readOutPixel signed read' frameBuf i := by
  unfold readOutPixel
  rw [h]

theorem pairwise_range {R : ℕ → ℕ → Prop} {n i j : ℕ} (h : (List.range n).Pairwise R) (hij : i < j) (hj : j < n) :
    R i j := by
  have hget := List.pairwise_iff_getElem.mp h i j (by rw [List.length_range]; omega) (by rwa [List.length_range]) hij
  rwa [List.getElem_range, List.getElem_range] at hget

theorem extractLsb'_setWidth (p : BitVec 16) {k : ℕ} (hk : k ≤ 8) :
    (p.setWidth 32).extractLsb' k 8 = p.extractLsb' k 8 := by
  refine BitVec.eq_of_getLsbD_eq fun j hj => ?_
  rw [BitVec.getLsbD_extractLsb', BitVec.getLsbD_extractLsb', BitVec.getLsbD_setWidth,
    decide_eq_true (by omega : k + j < 32), Bool.true_and]

section Run

variable {α β : Type*} {c₀ : Joint 4 α Ov7670Soc} {ins : ℕ → Pace × Ov7670Top.In} {t u q i : ℕ}

/-- The hardware in cycle `t`. -/
def socAt (c₀ : Joint 4 α Ov7670Soc) (ins : ℕ → Pace × Ov7670Top.In) (t : ℕ) : Ov7670Soc :=
  (Joint.runOn device c₀ ins t).device

/-- The cells of the downsampled frame buffer. -/
def keptAt (c₀ : Joint 4 α Ov7670Soc) (ins : ℕ → Pace × Ov7670Top.In) (t : ℕ) : ℕ → BitVec 16 :=
  (socAt c₀ ins t).top.kept

/-- The alarm. -/
def suspAt (c₀ : Joint 4 α Ov7670Soc) (ins : ℕ → Pace × Ov7670Top.In) (t : ℕ) : Bool :=
  (socAt c₀ ins t).top.objDetSusp (ins t).2

/-- The word of cell `i`. -/
def pixelAt (c₀ : Joint 4 α Ov7670Soc) (ins : ℕ → Pace × Ov7670Top.In) (t i : ℕ) : BitVec 32 :=
  (keptAt c₀ ins t i).setWidth 32

theorem slave_succ (t : ℕ) : (socAt c₀ ins (t + 1)).s00AxiInst = (socAt c₀ ins t).s00AxiInst.clock true
    ((Joint.runOn device c₀ ins t).master (ins t).1) (socAt c₀ ins t).top.downsampledFrameBuffer.doutb := rfl

/-- The address written stays until the next write. -/
theorem slvReg0_of_takes
    (hq : Joint.Takes device (ins q).1 bramAddrReg (BitVec.ofNat 32 i) (Joint.runOn device c₀ ins q))
    (hquiet : QuietIn device c₀ ins (q + 1) u) {z : ℕ} (hqz : q + 1 ≤ z) (hzu : z ≤ u) :
    (socAt c₀ ins z).s00AxiInst.slvReg0 = BitVec.ofNat 32 i := by
  induction z, hqz using Nat.le_induction with
  | base =>
    have hwren : (socAt c₀ ins q).s00AxiInst.axi.slvRegWren ((Joint.runOn device c₀ ins q).master (ins q).1) = true :=
      hq.wren
    have haddr : (socAt c₀ ins q).s00AxiInst.axi.awaddr = bramAddrReg := hq.awaddr
    rw [slave_succ, S00Axi.clock_slvReg0_of_writes ⟨hwren, by rw [haddr]; decide⟩ hq.wstrb, hq.wdata]
  | succ z hqz ih =>
    have hno : ¬ (socAt c₀ ins z).s00AxiInst.Writes ((Joint.runOn device c₀ ins z).master (ins z).1) 0 := by
      rintro ⟨hw, -⟩
      exact Bool.false_ne_true ((hquiet z hqz (by omega)).symm.trans hw)
    rw [slave_succ, S00Axi.clock_slvReg0_of_not_writes hno]
    exact ih (by omega)

/-- One cycle after the address the buffer shows the pixel, and one more cycle later the data register. -/
theorem slvReg1_of_slvReg0 (hi : i < frameSize) (h : (socAt c₀ ins t).s00AxiInst.slvReg0 = BitVec.ofNat 32 i)
    (hquiet : Joint.Quiet device (ins (t + 1)).1 (Joint.runOn device c₀ ins (t + 1))) :
    (socAt c₀ ins (t + 2)).s00AxiInst.slvReg1 = keptAt c₀ ins t i := by
  have haddr : (socAt c₀ ins t).s00AxiInst.bramAddr.toNat = i := by
    unfold S00Axi.bramAddr
    rw [h, BitVec.toNat_setWidth, BitVec.toNat_ofNat]
    rw [frameSize_eq] at hi
    omega
  have hdout : (socAt c₀ ins (t + 1)).top.downsampledFrameBuffer.doutb = keptAt c₀ ins t i := by
    have hclk : (socAt c₀ ins (t + 1)).top.downsampledFrameBuffer.doutb =
        keptAt c₀ ins t (socAt c₀ ins t).s00AxiInst.bramAddr.toNat :=
      DualRam.clock_doutb_of_lt (show (socAt c₀ ins t).s00AxiInst.bramAddr.toNat < frameSize from haddr ▸ hi)
    rw [hclk, haddr]
  have hno : (socAt c₀ ins (t + 1)).s00AxiInst.axi.slvRegWren
      ((Joint.runOn device c₀ ins (t + 1)).master (ins (t + 1)).1) = false := hquiet
  rw [slave_succ, S00Axi.clock_slvReg1_of_not_wren hno, hdout]

variable (hfair : Fair fun t => (ins t).1)
include hfair

/-- **A pass** reads the pixel as it is in a cycle of the pass. -/
theorem completes_pixel {next : BitVec 32 → Program 4 β} {Q : β → ℕ → Prop} (hi : i < frameSize)
    (h : ∀ q u, t ≤ q → q < u → Completes device c₀ ins u (next (pixelAt c₀ ins q i)) Q) :
    Completes device c₀ ins t (.write bramAddrReg (BitVec.ofNat 32 i) (.read bramDataReg next)) Q := by
  refine completes_write hfair fun w v htw hwv _ htakes hquiet => ?_
  refine completes_read hfair fun r u hvr hru hquiet' hgives => ?_
  obtain ⟨q, rfl⟩ : ∃ q, r = q + 2 := ⟨r - 2, by omega⟩
  have haddr : (socAt c₀ ins (q + 2)).s00AxiInst.axi.araddr = bramDataReg := hgives.araddr
  have h0 : (socAt c₀ ins q).s00AxiInst.slvReg0 = BitVec.ofNat 32 i :=
    slvReg0_of_takes htakes (hquiet.trans hquiet') (by omega) (by omega)
  have hword : device.regDataOut (Joint.runOn device c₀ ins (q + 2)).device = pixelAt c₀ ins q i := by
    show (socAt c₀ ins (q + 2)).s00AxiInst.regDataOut = _
    rw [S00Axi.regDataOut_of_one (by rw [haddr]; decide),
      slvReg1_of_slvReg0 hi h0 (hquiet.trans hquiet' (q + 1) (by omega) (by omega))]
    rfl
  rw [hword]
  exact h q u (by omega) (by omega)

/-- **The loop** copies each pixel as it is in a cycle of its own. -/
theorem completes_readPixels {signed : Bool} {is : List ℕ} (his : ∀ i ∈ is, i < frameSize) (hnodup : is.Nodup)
    (frameBuf : FrameBuf) :
    Completes device c₀ ins t (readPixels signed is frameBuf) fun x u => ∃ q : ℕ → ℕ,
      (∀ i ∈ is, t ≤ q i ∧ q i < u) ∧ is.Pairwise (fun i j => q i < q j) ∧
        x = is.foldl (readOutPixel signed fun i => pixelAt c₀ ins (q i) i) frameBuf := by
  induction is generalizing t frameBuf with
  | nil => exact completes_done ⟨id, by simp, .nil, rfl⟩
  | cons i is ih =>
    obtain ⟨hi, hnodup⟩ := List.nodup_cons.mp hnodup
    refine completes_pixel hfair (his i List.mem_cons_self) fun q u htq hqu => ?_
    refine (ih (fun j hj => his j (List.mem_cons_of_mem i hj)) hnodup _).mono ?_
    rintro x v huv ⟨q', hq', hpair, rfl⟩
    have hself : Function.update q' i q i = q := Function.update_self ..
    have hof : ∀ j ∈ is, Function.update q' i q j = q' j := fun j hj =>
      Function.update_of_ne (by rintro rfl; exact hi hj) ..
    refine ⟨Function.update q' i q, ?_, ?_, ?_⟩
    · intro j hj
      rcases List.mem_cons.mp hj with rfl | hj
      · rw [hself]
        exact ⟨htq, hqu.trans_le huv⟩
      · rw [hof j hj]
        exact ⟨(htq.trans hqu.le).trans (hq' j hj).1, (hq' j hj).2⟩
    · refine List.pairwise_cons.mpr ⟨fun j hj => ?_, ?_⟩
      · rw [hself, hof j hj]
        exact hqu.trans_le (hq' j hj).1
      · refine hpair.imp_of_mem fun hj hk hlt => ?_
        rwa [hof _ hj, hof _ hk]
    · have hfirst : readOutPixel signed (fun j => pixelAt c₀ ins (Function.update q' i q j) j) frameBuf i =
          readOutPixel signed (fun _ => pixelAt c₀ ins q i) frameBuf i := by
        refine readOutPixel_congr ?_
        show pixelAt c₀ ins (Function.update q' i q i) i = _
        rw [hself]
      rw [List.foldl_cons, hfirst]
      refine List.foldl_ext _ _ _ fun buf j hj => readOutPixel_congr ?_
      show pixelAt c₀ ins (q' j) j = pixelAt c₀ ins (Function.update q' i q j) j
      rw [hof j hj]

theorem completes_readFrame (signed : Bool) (frameBuf : FrameBuf) :
    Completes device c₀ ins t (readFrame signed frameBuf) fun x u => ∃ q : ℕ → ℕ,
      (∀ i < frameSize, t ≤ q i ∧ q i < u) ∧ (∀ i j, i < j → j < frameSize → q i < q j) ∧
        x = readOut signed (fun i => pixelAt c₀ ins (q i) i) frameBuf := by
  unfold readFrame
  refine (completes_readPixels hfair ?_ List.nodup_range frameBuf).mono ?_
  · exact fun i hi => List.mem_range.mp hi
  · rintro x u - ⟨q, hq, hpair, hx⟩
    exact ⟨q, fun i hi => hq i (List.mem_range.mpr hi), fun _ _ => pairwise_range hpair, hx⟩

omit hfair in
/-- Under the alarm the buffer stays as it is. -/
theorem keptAt_of_susp (h : ∀ z, t ≤ z → z < u → suspAt c₀ ins z = true) (htu : t ≤ u) :
    keptAt c₀ ins u = keptAt c₀ ins t := by
  induction u, htu using Nat.le_induction with
  | base => rfl
  | succ u htu ih =>
    rw [← ih fun z h1 h2 => h z h1 (Nat.lt_succ_of_lt h2)]
    exact Ov7670Top.kept_of_not_wren (Ov7670Top.frameBramWren_of_susp (h u htu (Nat.lt_succ_self u)))

omit hfair in
theorem bytes_of_readOut {signed : Bool} {x frameBuf : FrameBuf} {q : ℕ → ℕ} {i : ℕ}
    (hx : x = readOut signed (fun i => pixelAt c₀ ins (q i) i) frameBuf) (hi : i < frameSize) :
    x (i * 2) = (keptAt c₀ ins (q i) i).extractLsb' 8 8 ∧ x (i * 2 + 1) = (keptAt c₀ ins (q i) i).extractLsb' 0 8 := by
  rw [hx, (readOut_eq hi).1, (readOut_eq hi).2]
  exact ⟨extractLsb'_setWidth _ le_rfl, extractLsb'_setWidth _ (Nat.zero_le 8)⟩

end Run

/-- **The frame read.**  At any pace the loop comes to its end, and leaves the pixels in `frame_buf`, the high byte
first, each as the buffer held it in a cycle of the loop, in the order of the addresses.  If the alarm is high all the
while, it is the one frame that the buffer held when the loop was entered. -/
theorem frame_read (c₀ : Joint 4 FrameBuf Ov7670Soc) (ins : ℕ → Pace × Ov7670Top.In) (t : ℕ)
    (hfair : Fair fun t => (ins t).1) (signed : Bool) (frameBuf : FrameBuf)
    (hready : Joint.Ready device (readFrame signed frameBuf) (Joint.runOn device c₀ ins t)) :
    ∃ u ≥ t, ∃ x : FrameBuf, Joint.Ready device (.done x) (Joint.runOn device c₀ ins u) ∧
      ∃ q : ℕ → ℕ, (∀ i < frameSize, t ≤ q i ∧ q i < u) ∧ (∀ i j, i < j → j < frameSize → q i < q j) ∧
        x = readOut signed (fun i => pixelAt c₀ ins (q i) i) frameBuf ∧
        (∀ i < frameSize, x (i * 2) = (keptAt c₀ ins (q i) i).extractLsb' 8 8 ∧
          x (i * 2 + 1) = (keptAt c₀ ins (q i) i).extractLsb' 0 8) ∧
        ((∀ z, t ≤ z → z < u → suspAt c₀ ins z = true) →
          ∀ i < frameSize, x (i * 2) = (keptAt c₀ ins t i).extractLsb' 8 8 ∧
            x (i * 2 + 1) = (keptAt c₀ ins t i).extractLsb' 0 8) := by
  obtain ⟨u, htu, x, hu, q, hq, horder, hx⟩ := (completes_readFrame hfair signed frameBuf).finish hready
  have hbytes : ∀ i < frameSize, x (i * 2) = (keptAt c₀ ins (q i) i).extractLsb' 8 8 ∧
      x (i * 2 + 1) = (keptAt c₀ ins (q i) i).extractLsb' 0 8 := fun _ => bytes_of_readOut hx
  refine ⟨u, htu, x, hu, q, hq, horder, hx, hbytes, fun hsusp i hi => ?_⟩
  rw [← keptAt_of_susp (fun z h1 h2 => hsusp z h1 (h2.trans (hq i hi).2)) (hq i hi).1]
  exact hbytes i hi

/-- A processor at full speed, the camera at rest and thresholds that raise no alarm. -/
def idleIn (_ : ℕ) : Pace × Ov7670Top.In where
  fst := .full
  snd :=
    { ov7670Vsync := false
      captureAddr := 0
      captureWren := false
      rgbData16 := 0
      decimationRate := 0
      configFinished := true
      startCapture := false
      bwThres := 8
      detectionThres := 48
      staticThres := 64
      suspicionThres := 2
      bramAddr := 0
      frameOob := 0
      bramOob := 0 }

/-- The processor enters the loop, with the slave as after its reset. -/
def loopEntry (top : Ov7670Top) : Joint 4 FrameBuf Ov7670Soc := ⟨.start (readFrame true fun _ => 0), ⟨top, S00Axi.init⟩⟩

theorem ready_loopEntry (top : Ov7670Top) : Joint.Ready device (readFrame true fun _ => 0) (loopEntry top) :=
  ⟨rfl, Slave.inWrite_init, Slave.inRead_init⟩

/-- A frame whose pixels are their own addresses. -/
def countingFrame : Ov7670Top := ⟨System.init, ⟨fun _ => 0, 0⟩, ⟨fun a => BitVec.ofNat 16 a, 0⟩⟩

theorem frame_read_countingFrame : ∃ u ≥ 0, ∃ x : FrameBuf,
    Joint.Ready device (.done x) (Joint.runOn device (loopEntry countingFrame) idleIn u) ∧ ∃ q : ℕ → ℕ,
      ∀ i < frameSize, q i < u ∧ x (i * 2) = (keptAt (loopEntry countingFrame) idleIn (q i) i).extractLsb' 8 8 := by
  obtain ⟨u, hu, x, hr, q, hq, -, -, hbytes, -⟩ :=
    frame_read (loopEntry countingFrame) idleIn 0 (fair_full fun _ => rfl) true _ (ready_loopEntry countingFrame)
  exact ⟨u, hu, x, hr, q, fun i hi => ⟨(hq i hi).2, (hbytes i hi).1⟩⟩

end Ov7670Soc

end SuspiciousPackage
