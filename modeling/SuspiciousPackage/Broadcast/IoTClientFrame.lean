import SuspiciousPackage.Broadcast.Send
import SuspiciousPackage.Text.P3

/-!
# Broadcast.IoTClientFrame — the PPM writer of `IoT_client_frame.py`

The client turns the first `2 * 320 * 165` bytes it received into a plain PPM text.  An index beyond the data raises,
which is `none` here.  `client_reads_frame`: read as an image, the text has at position `320 * h + w` the channels
that the detector takes from pixel `320 * h + w` of the frame buffer.
-/

namespace SuspiciousPackage

open Text

namespace IoTClientFrame

def width : ℕ := 320

def height : ℕ := 165

def maxColourVal : ℕ := 15

/-- `data += frame` for each frame received. -/
def received (frames : List (List (BitVec 8))) : List (BitVec 8) := frames.foldl (· ++ ·) []

/-- `P3 {width} {height} {max_colour_val}` and a line break. -/
def ppmHeader : List Char :=
  'P' :: '3' :: ' ' :: (Nat.toDigits 10 width ++ ' ' :: (Nat.toDigits 10 height ++ ' ' ::
    (Nat.toDigits 10 maxColourVal ++ ['\n'])))

/-- `%s %s %s ` -/
def pixelText (c : Rgb) : List Char :=
  Nat.toDigits 10 c.1 ++ ' ' :: (Nat.toDigits 10 c.2.1 ++ ' ' :: (Nat.toDigits 10 c.2.2 ++ [' ']))

/-- The colours taken from two bytes. -/
def colours (first8bits last8bits : BitVec 8) : Rgb :=
  (first8bits.toNat &&& 0xF, (last8bits.toNat &&& 0xF0) >>> 4, last8bits.toNat &&& 0x0F)

section Writer

variable (data : List (BitVec 8))

def writePixel (h w : ℕ) (fRec : List Char) : Option (List Char) :=
  data[h * width * 2 + w * 2]?.bind fun first8bits =>
    data[h * width * 2 + w * 2 + 1]?.bind fun last8bits =>
      some (fRec ++ pixelText (colours first8bits last8bits))

def writeRow (h : ℕ) (fRec : List Char) : Option (List Char) :=
  ((List.range width).foldlM (fun fRec w => writePixel data h w fRec) fRec).map (· ++ ['\n'])

/-- The text written to the file. -/
def writePpm : Option (List Char) :=
  (List.range height).foldlM (fun fRec h => writeRow data h fRec) ppmHeader

end Writer

/-! ## What is written -/

section Written

variable {α : Type*}

/-- A loop that appends a text in each pass. -/
theorem foldlM_append {f : List Char → α → Option (List Char)} {g : α → List Char} {l : List α}
    (h : ∀ a ∈ l, ∀ acc, f acc a = some (acc ++ g a)) (acc : List Char) :
    l.foldlM f acc = some (acc ++ l.flatMap g) := by
  induction l generalizing acc with
  | nil => simp
  | cons a l ih =>
    have hl : ∀ b ∈ l, ∀ acc, f acc b = some (acc ++ g b) := fun b hb => h b (List.mem_cons_of_mem a hb)
    rw [List.foldlM_cons, h a List.mem_cons_self, List.flatMap_cons, ← List.append_assoc, ← ih hl]
    rfl

/-- The text of an image whose pixel `k` is `c k`. -/
def imageText (c : ℕ → Rgb) : List Char :=
  ppmHeader ++ (List.range height).flatMap fun h =>
    (List.range width).flatMap (fun w => pixelText (c (width * h + w))) ++ ['\n']

/-- **The writer**, when the data hold the bytes of the pixels `c`. -/
theorem writePpm_eq {data : List (BitVec 8)} {first last : ℕ → BitVec 8}
    (hfirst : ∀ k < width * height, data[k * 2]? = some (first k))
    (hlast : ∀ k < width * height, data[k * 2 + 1]? = some (last k)) :
    writePpm data = some (imageText fun k => colours (first k) (last k)) := by
  have hpixel : ∀ h < height, ∀ w < width, ∀ fRec, writePixel data h w fRec =
      some (fRec ++ pixelText (colours (first (width * h + w)) (last (width * h + w)))) := by
    intro h hh w hw fRec
    have hk : width * h + w < width * height := by
      unfold width height at *
      omega
    unfold writePixel
    rw [show h * width * 2 + w * 2 = (width * h + w) * 2 by rw [Nat.mul_comm h]; omega, hfirst _ hk, hlast _ hk]
    rfl
  refine foldlM_append (fun h hh fRec => ?_) ppmHeader
  unfold writeRow
  rw [foldlM_append (fun w hw => hpixel h (List.mem_range.mp hh) w (List.mem_range.mp hw)), Option.map_some,
    List.append_assoc]

/-! ## Reading it back -/

theorem tokens_pixelText (c : Rgb) (rest : List Char) :
    tokens (pixelText c ++ rest) = c.samples.map (Nat.toDigits 10) ++ tokens rest := by
  have hsp : ' '.isWhitespace = true := by decide
  unfold pixelText
  simp only [List.append_assoc, List.cons_append, List.nil_append]
  rw [tokens_decimal _ hsp, tokens_decimal _ hsp, tokens_decimal _ hsp]
  rfl

theorem tokens_flatMap_pixelText (cs : List Rgb) (rest : List Char) :
    tokens (cs.flatMap pixelText ++ rest) = (cs.flatMap Rgb.samples).map (Nat.toDigits 10) ++ tokens rest := by
  induction cs with
  | nil => rfl
  | cons c cs ih =>
    rw [List.flatMap_cons, List.append_assoc, tokens_pixelText, ih, List.flatMap_cons, List.map_append,
      List.append_assoc]

theorem tokens_rows (rows : List (List Rgb)) :
    tokens (rows.flatMap fun cs => cs.flatMap pixelText ++ ['\n']) =
      (rows.flatten.flatMap Rgb.samples).map (Nat.toDigits 10) := by
  induction rows with
  | nil => exact tokens_nil
  | cons cs rows ih =>
    have hnl : '\n'.isWhitespace = true := by decide
    rw [List.flatMap_cons, List.append_assoc, tokens_flatMap_pixelText, List.singleton_append, tokens_space hnl, ih,
      List.flatten_cons, List.flatMap_append, List.map_append]

/-- The rows of an image one after the other. -/
theorem flatten_rows {α : Type*} (f : ℕ → α) (m n : ℕ) :
    ((List.range m).map fun h => (List.range n).map fun w => f (n * h + w)).flatten = (List.range (n * m)).map f := by
  induction m with
  | zero => rfl
  | succ m ih =>
    rw [List.range_succ, List.map_append, List.flatten_append, ih, Nat.mul_succ, List.range_add, List.map_append,
      List.map_map]
    simp

/-- **The image read back** from the text. -/
theorem readP3_imageText (c : ℕ → Rgb) :
    readP3 (imageText c) = some ⟨width, height, maxColourVal, (List.range (width * height)).map c⟩ := by
  have hsp : ' '.isWhitespace = true := by decide
  have hnl : '\n'.isWhitespace = true := by decide
  apply readP3_eq
  have hrows : ((List.range height).flatMap fun h =>
      (List.range width).flatMap (fun w => pixelText (c (width * h + w))) ++ ['\n']) =
      ((List.range height).map fun h => (List.range width).map fun w => c (width * h + w)).flatMap
        fun cs => cs.flatMap pixelText ++ ['\n'] := by
    rw [List.flatMap_map]
    simp only [List.flatMap_map]
  have hmagic : ∀ rest, tokens ('P' :: '3' :: ' ' :: rest) = ['P', '3'] :: tokens rest := by
    intro rest
    have hP3 : ∀ c ∈ ['P', '3'], c.isWhitespace = false :=
      List.forall_mem_cons.mpr ⟨by decide, List.forall_mem_singleton.mpr (by decide)⟩
    have hword : tokens (['P', '3'] ++ ' ' :: rest) = ['P', '3'] :: tokens rest :=
      tokens_word (by simp) hP3 hsp
    exact hword
  unfold imageText ppmHeader
  rw [hrows]
  simp only [List.append_assoc, List.cons_append, List.nil_append]
  rw [hmagic, tokens_decimal _ hsp, tokens_decimal _ hsp, tokens_decimal _ hnl, tokens_rows, flatten_rows]
  simp only [List.map_cons]

end Written

/-! ## Server and client -/

/-- The channels of a pixel as the detector takes them. -/
def channels (p : BitVec 16) : Rgb := ((pixelR p).toNat, (pixelG p).toNat, (pixelB p).toNat)

theorem channels_le (p : BitVec 16) :
    (channels p).1 ≤ maxColourVal ∧ (channels p).2.1 ≤ maxColourVal ∧ (channels p).2.2 ≤ maxColourVal := by
  have hlt : ∀ x : BitVec 4, x.toNat ≤ maxColourVal := fun x => Nat.le_of_lt_succ x.isLt
  exact ⟨hlt _, hlt _, hlt _⟩

/-- **The two ends agree on a pixel.** -/
theorem colours_eq {x : BitVec 32} {p : BitVec 16} (h : x.setWidth 16 = p) :
    colours (x.extractLsb' 8 8) (x.extractLsb' 0 8) = channels p := by
  subst h
  have hlow : ∀ n : ℕ, n &&& 0xF = n % 16 := fun n => Nat.and_two_pow_sub_one_eq_mod n 4
  have hhigh : ∀ n : ℕ, (n &&& 0xF0) >>> 4 = n / 16 % 16 := by
    intro n
    rw [Nat.shiftRight_and_distrib, Nat.shiftRight_eq_div_pow]
    exact hlow (n / 2 ^ 4)
  unfold colours channels pixelR pixelG pixelB
  rw [hlow, hlow, hhigh]
  simp only [BitVec.extractLsb'_toNat, BitVec.toNat_setWidth, Nat.shiftRight_eq_div_pow]
  refine Prod.ext ?_ (Prod.ext ?_ ?_)
  · show x.toNat / 2 ^ 8 % 2 ^ 8 % 16 = x.toNat % 2 ^ 16 / 2 ^ 8 % 2 ^ 4
    omega
  · show x.toNat / 2 ^ 0 % 2 ^ 8 / 16 % 16 = x.toNat % 2 ^ 16 / 2 ^ 4 % 2 ^ 4
    omega
  · show x.toNat / 2 ^ 0 % 2 ^ 8 % 16 = x.toNat % 2 ^ 16 / 2 ^ 0 % 2 ^ 4
    omega

section Delivery

variable {signed : Bool} {read : ℕ → BitVec 32} {frameBuf : FrameBuf} {data : List (BitVec 8)} {rest : List (BitVec 8)}

/-- Data delivered in order are the bytes of `frame_buf`. -/
theorem data_getElem? (hdata : data <+: frameBuf.bytes ++ rest) {k : ℕ} (hk : k < data.length)
    (hk' : k < frameBufSize) :
    data[k]? = some (frameBuf k) := by
  obtain ⟨more, hmore⟩ := hdata
  rw [← List.getElem?_append_left hk, hmore, List.getElem?_append_left (by rw [length_bytes]; exact hk'),
    bytes_getElem? hk']

/-- **Server and client agree on the whole image.**  Whatever the buffer `B`, the sign of `char` and the way the stream
is cut, once `105600` bytes of `frame_buf` have arrived the client writes a valid image of `320 * 165` pixels, which has
at position `320 * h + w` the channels of pixel `320 * h + w` of the buffer, with the maximum `15`. -/
theorem client_reads_frame (B : ℕ → BitVec 16) (signed : Bool) (read : ℕ → BitVec 32)
    (hread : ∀ i < frameSize, (read i).setWidth 16 = B i) (frameBuf : FrameBuf) (rest : List (BitVec 8))
    (frames : List (List (BitVec 8))) (hdata : received frames <+: (readOut signed read frameBuf).bytes ++ rest)
    (hlen : 105600 ≤ (received frames).length) :
    ∃ text img, writePpm (received frames) = some text ∧ readP3 text = some img ∧ img.Valid ∧
      img.width = 320 ∧ img.height = 165 ∧ img.maxVal = 15 ∧
      ∀ h < 165, ∀ w < 320, img.pixels[320 * h + w]? =
        some ((pixelR (B (320 * h + w))).toNat, (pixelG (B (320 * h + w))).toNat, (pixelB (B (320 * h + w))).toNat) := by
  have hfs := frameSize_eq
  have hsize : frameBufSize = 153600 := rfl
  have hpix : width * height = 52800 := rfl
  have hbyte : ∀ k < 105600, (received frames)[k]? = some (readOut signed read frameBuf k) := fun k hk =>
    data_getElem? hdata (by omega) (by omega)
  have hfirst : ∀ k < width * height, (received frames)[k * 2]? = some ((read k).extractLsb' 8 8) := by
    intro k hk
    rw [hbyte _ (by omega), (readOut_eq (by omega)).1]
  have hlast : ∀ k < width * height, (received frames)[k * 2 + 1]? = some ((read k).extractLsb' 0 8) := by
    intro k hk
    rw [hbyte _ (by omega), (readOut_eq (by omega)).2]
  have htext := writePpm_eq hfirst hlast
  refine ⟨_, _, htext, readP3_imageText _, ⟨?_, ?_⟩, rfl, rfl, rfl, fun h hh w hw => ?_⟩
  · simp
  · intro c hc
    simp only [List.mem_map, List.mem_range] at hc
    obtain ⟨k, hk, rfl⟩ := hc
    rw [colours_eq (hread k (by omega))]
    exact channels_le (B k)
  · rw [List.getElem?_map, List.getElem?_range (by omega), Option.map_some, colours_eq (hread _ (by omega))]
    rfl

end Delivery

/-- Two pieces in a row. -/
theorem received_pair (bytes : List (BitVec 8)) (m n : ℕ) :
    received [bytes.take m, (bytes.drop m).take n] = bytes.take (m + n) := by
  rw [List.take_add]
  rfl

/-- The bytes of a buffer in which each pixel is its own address. -/
def countingBytes : List (BitVec 8) := (readOut true (BitVec.ofNat 32) fun _ => 0).bytes

/-- Row `1`, column `2` of that image shows the word `0x142`, the stream being cut in two. -/
theorem client_reads_frame_counting :
    ∃ text img, writePpm (received [countingBytes.take 4096, (countingBytes.drop 4096).take 101504]) = some text ∧
      readP3 text = some img ∧ img.Valid ∧ img.pixels[320 * 1 + 2]? = some (1, 4, 2) := by
  have hread : ∀ i < frameSize, (BitVec.ofNat 32 i).setWidth 16 = BitVec.ofNat 16 i := fun i _ =>
    BitVec.setWidth_ofNat_of_le (by omega) i
  have hrec := received_pair countingBytes 4096 101504
  have hdata : received [countingBytes.take 4096, (countingBytes.drop 4096).take 101504] <+: countingBytes ++ [] := by
    rw [hrec, List.append_nil]
    exact List.take_prefix ..
  have hlen : 105600 ≤ (received [countingBytes.take 4096, (countingBytes.drop 4096).take 101504]).length := by
    rw [hrec, List.length_take, countingBytes, length_bytes, show frameBufSize = 153600 from rfl]
    omega
  obtain ⟨text, img, htext, himg, hvalid, -, -, -, hpix⟩ :=
    client_reads_frame (BitVec.ofNat 16) true (BitVec.ofNat 32) hread (fun _ => 0) [] _ hdata hlen
  exact ⟨text, img, htext, himg, hvalid, (hpix 1 (by omega) 2 (by omega)).trans (by decide)⟩

end IoTClientFrame

end SuspiciousPackage
