import Mathlib.Data.Nat.Notation
import Mathlib.Tactic.Common

/-!
# Text.P3 — plain PPM images as texts

A text is a list of characters.  `tokens` splits it at whitespace and `readP3` reads the tokens as a plain PPM image:
`P3`, width, height, the maximal sample and the pixels.  The rules `tokens_decimal`, `tokens_space` and `readP3_eq`
take a text written number by number back to its numbers.  Nothing here is about a particular image.
-/

namespace Text

/-! ## Tokens -/

/-- The runs of characters between whitespace. -/
def tokens (cs : List Char) : List (List Char) := (cs.splitOnP Char.isWhitespace).filter fun w => !w.isEmpty

section Tokens

variable {sep : Char} {word rest : List Char}

@[simp] theorem tokens_nil : tokens [] = [] := by
  simp [tokens]

/-- A leading separator is skipped. -/
theorem tokens_space (hsep : sep.isWhitespace = true) : tokens (sep :: rest) = tokens rest := by
  unfold tokens
  have hno : ∀ c ∈ ([] : List Char), c.isWhitespace = false := fun c hc => absurd hc List.not_mem_nil
  have hsplit : (sep :: rest).splitOnP Char.isWhitespace = [] :: rest.splitOnP Char.isWhitespace :=
    List.splitOnP_append_cons_of_forall_mem hno sep hsep rest
  rw [hsplit]
  rfl

/-- A leading word up to its separator is a token. -/
theorem tokens_word (hne : word ≠ []) (hw : ∀ c ∈ word, c.isWhitespace = false) (hsep : sep.isWhitespace = true) :
    tokens (word ++ sep :: rest) = word :: tokens rest := by
  unfold tokens
  rw [List.splitOnP_append_cons_of_forall_mem hw sep hsep rest]
  refine List.filter_cons_of_pos ?_
  simpa using hne

theorem isWhitespace_of_isDigit {c : Char} (h : c.isDigit = true) : c.isWhitespace = false := by
  by_contra hw
  rw [Bool.not_eq_false] at hw
  simp only [Char.isWhitespace, Bool.or_eq_true, decide_eq_true_eq] at hw
  rcases hw with ((rfl | rfl) | rfl) | rfl <;> exact absurd h (by decide)

/-- A decimal number up to its separator is a token. -/
theorem tokens_decimal (n : ℕ) (hsep : sep.isWhitespace = true) :
    tokens (Nat.toDigits 10 n ++ sep :: rest) = Nat.toDigits 10 n :: tokens rest := by
  refine tokens_word Nat.toDigits_ne_nil (fun c hc => ?_) hsep
  exact isWhitespace_of_isDigit (Nat.isDigit_of_mem_toDigits (by decide) (by decide) hc)

end Tokens

/-! ## Numbers -/

/-- A token read as a decimal number. -/
def readNat (w : List Char) : Option ℕ := if w.all Char.isDigit then some (Nat.ofDigitChars 10 w 0) else none

theorem readNat_toDigits (n : ℕ) : readNat (Nat.toDigits 10 n) = some n := by
  have hall : (Nat.toDigits 10 n).all Char.isDigit = true := by
    rw [List.all_eq_true]
    intro c hc
    exact Nat.isDigit_of_mem_toDigits (by decide) (by decide) hc
  unfold readNat
  rw [if_pos hall, Nat.ofDigitChars_ten_toDigits]

theorem mapM_readNat (ns : List ℕ) : (ns.map (Nat.toDigits 10)).mapM readNat = some ns := by
  induction ns with
  | nil => rfl
  | cons n ns ih =>
    rw [List.map_cons, List.mapM_cons, readNat_toDigits, ih]
    rfl

/-! ## Images -/

/-- A pixel: red, green and blue. -/
abbrev Rgb := ℕ × ℕ × ℕ

def Rgb.samples (c : Rgb) : List ℕ := [c.1, c.2.1, c.2.2]

/-- The samples in groups of three. -/
def triples : List ℕ → List Rgb
  | r :: g :: b :: rest => (r, g, b) :: triples rest
  | _ => []

theorem triples_samples (cs : List Rgb) : triples (cs.flatMap Rgb.samples) = cs := by
  induction cs with
  | nil => rfl
  | cons c cs ih =>
    rw [List.flatMap_cons]
    show (c.1, c.2.1, c.2.2) :: triples (cs.flatMap Rgb.samples) = c :: cs
    rw [ih]

/-- What a plain PPM text describes. -/
structure P3 where
  width : ℕ
  height : ℕ
  maxVal : ℕ
  pixels : List Rgb
deriving DecidableEq, Repr

/-- As many pixels as announced, and no sample above the maximum. -/
structure P3.Valid (img : P3) : Prop where
  length : img.pixels.length = img.width * img.height
  le_maxVal : ∀ c ∈ img.pixels, c.1 ≤ img.maxVal ∧ c.2.1 ≤ img.maxVal ∧ c.2.2 ≤ img.maxVal

def readP3 (text : List Char) : Option P3 :=
  match tokens text with
  | ['P', '3'] :: words =>
    match words.mapM readNat with
    | some (width :: height :: maxVal :: samples) => some ⟨width, height, maxVal, triples samples⟩
    | _ => none
  | _ => none

/-- **Reading back the numbers of an image.** -/
theorem readP3_eq {text : List Char} {img : P3} (h : tokens text =
    ['P', '3'] :: (img.width :: img.height :: img.maxVal :: img.pixels.flatMap Rgb.samples).map (Nat.toDigits 10)) :
    readP3 text = some img := by
  unfold readP3
  rw [h]
  show (match (List.map (Nat.toDigits 10) _).mapM readNat with
    | some (width :: height :: maxVal :: samples) => some (P3.mk width height maxVal (triples samples))
    | _ => none) = some img
  rw [mapM_readNat]
  show some (P3.mk _ _ _ (triples (img.pixels.flatMap Rgb.samples))) = some img
  rw [triples_samples]

end Text
