import SuspiciousPackage.Detect.Unit

/-!
# Broadcast.Send — the read-out loop of `recv_callback`

The server copies the downsampled frame into `frame_buf`, two bytes for each pixel, the high byte first.  `read i` is
the word read from register `1` after writing `i` to register `0`.  Whether `char` is signed is left open.
-/

namespace SuspiciousPackage

/-- `FRAME_BUF_SIZE`, in bytes. -/
def frameBufSize : ℕ := frameSize * 2

abbrev FrameBuf := ℕ → BitVec 8

/-- An `int` converted to `char`. -/
def charOf (signed : Bool) (x : BitVec 32) : Int := if signed then (x.setWidth 8).toInt else (x.setWidth 8).toNat

/-- A `char` converted to `u8`. -/
def u8Of (c : Int) : BitVec 8 := BitVec.ofInt 8 c

section ReadOut

variable (signed : Bool) (read : ℕ → BitVec 32)

/-- One pass of the loop. -/
def readOutPixel (frameBuf : FrameBuf) (i : ℕ) : FrameBuf :=
  let pixel32 := read i
  let frameBuf := Function.update frameBuf (i * 2 + 1) (u8Of (charOf signed (pixel32 &&& 0xFF)))
  Function.update frameBuf (i * 2) (u8Of (charOf signed (pixel32.sshiftRight 8 &&& 0xFF)))

/-- The loop over the frame. -/
def readOut (frameBuf : FrameBuf) : FrameBuf := (List.range frameSize).foldl (readOutPixel signed read) frameBuf

end ReadOut

/-- The bytes of `frame_buf` in order. -/
def FrameBuf.bytes (frameBuf : FrameBuf) : List (BitVec 8) := (List.range frameBufSize).map frameBuf

section Bytes

variable {signed : Bool} {read : ℕ → BitVec 32} {frameBuf : FrameBuf}

/-- The way through `char` loses nothing, whatever its sign. -/
theorem u8Of_charOf (x : BitVec 32) : u8Of (charOf signed x) = x.setWidth 8 := by
  unfold u8Of charOf
  cases signed
  · have h : BitVec.ofInt 8 ((x.setWidth 8).toNat : Int) = x.setWidth 8 := by
      rw [BitVec.ofInt_natCast, BitVec.ofNat_toNat, BitVec.setWidth_eq]
    exact h
  · exact BitVec.ofInt_toInt

theorem u8Of_charOf_low (x : BitVec 32) : u8Of (charOf signed (x &&& 0xFF)) = x.extractLsb' 0 8 := by
  have hmask : x.toNat &&& 255 = x.toNat % 2 ^ 8 := Nat.and_two_pow_sub_one_eq_mod x.toNat 8
  rw [u8Of_charOf]
  apply BitVec.eq_of_toNat_eq
  rw [BitVec.toNat_setWidth, BitVec.toNat_and, BitVec.extractLsb'_toNat, Nat.shiftRight_zero]
  show (x.toNat &&& 255) % 2 ^ 8 = x.toNat % 2 ^ 8
  rw [hmask, Nat.mod_mod]

theorem u8Of_charOf_high (x : BitVec 32) :
    u8Of (charOf signed (x.sshiftRight 8 &&& 0xFF)) = x.extractLsb' 8 8 := by
  rw [u8Of_charOf_low]
  refine BitVec.eq_of_getLsbD_eq ?_
  intro i hi
  have hlt : 8 + i < 32 := by omega
  simp [hi, BitVec.getLsbD_sshiftRight, hlt]
  omega

/-- **What the loop stores**: the high byte of pixel `i` at `2 * i`, its low byte behind. -/
theorem readOut_eq {i : ℕ} (hi : i < frameSize) :
    readOut signed read frameBuf (i * 2) = (read i).extractLsb' 8 8 ∧
      readOut signed read frameBuf (i * 2 + 1) = (read i).extractLsb' 0 8 := by
  have hloop : ∀ n, i < n →
      (List.range n).foldl (readOutPixel signed read) frameBuf (i * 2) = (read i).extractLsb' 8 8 ∧
        (List.range n).foldl (readOutPixel signed read) frameBuf (i * 2 + 1) = (read i).extractLsb' 0 8 := by
    intro n hn
    induction n with
    | zero => omega
    | succ n ih =>
      rw [List.range_succ, List.foldl_append, List.foldl_cons, List.foldl_nil]
      generalize (List.range n).foldl (readOutPixel signed read) frameBuf = buf at ih ⊢
      unfold readOutPixel
      by_cases h : i = n
      · subst h
        constructor
        · rw [Function.update_self]
          exact u8Of_charOf_high (read i)
        · rw [Function.update_of_ne (by omega), Function.update_self]
          exact u8Of_charOf_low (read i)
      · rw [Function.update_of_ne (by omega), Function.update_of_ne (by omega), Function.update_of_ne (by omega),
          Function.update_of_ne (by omega)]
        exact ih (by omega)
  exact hloop frameSize hi

theorem length_bytes : frameBuf.bytes.length = frameBufSize := by
  simp [FrameBuf.bytes]

theorem bytes_getElem? {k : ℕ} (hk : k < frameBufSize) : frameBuf.bytes[k]? = some (frameBuf k) := by
  unfold FrameBuf.bytes
  rw [List.getElem?_map, List.getElem?_range hk]
  rfl

end Bytes

end SuspiciousPackage
