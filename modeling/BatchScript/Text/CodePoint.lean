/-!
# Code points

A text is made of code points. A code point is a character or a surrogate: one of the 2048 numbers
that UTF-16 takes two and two for the characters above the basic plane. A surrogate alone stands for
no character, and neither do two of them side by side, but a text may hold either. Where no
difference is made, the characters of a text are its code points.
-/

namespace BatchScript

/-- A character, or a surrogate by its number among the surrogates. -/
inductive CodePoint where
  | char (c : Char)
  | surrogate (n : Fin 0x800)
  deriving DecidableEq, Repr

export CodePoint (char surrogate)

namespace CodePoint

instance : Coe Char CodePoint :=
  ⟨char⟩

/-- The number of a code point. -/
def toNat : CodePoint → Nat
  | char c => c.toNat
  | surrogate n => 0xD800 + n

/-- The code point with a given number; a number past the last code point gives the first one. -/
def ofNat (n : Nat) : CodePoint :=
  if h : 0xD800 ≤ n ∧ n < 0xE000 then surrogate ⟨n - 0xD800, by omega⟩ else char (Char.ofNat n)

/-- The character of a code point that has one. -/
def char? : CodePoint → Option Char
  | char c => some c
  | surrogate _ => none

/-- Whether a code point stands for no character. -/
def isSurrogate (c : CodePoint) : Bool :=
  c.char?.isNone

/-- No character has the number of a surrogate. -/
theorem not_surrogate_toNat (c : Char) : ¬(0xD800 ≤ c.toNat ∧ c.toNat < 0xE000) := by
  have hvalid := c.valid
  simp only [UInt32.isValidChar, Nat.isValidChar] at hvalid
  simp only [Char.toNat]
  omega

/-- A code point is told by its number. -/
theorem ofNat_toNat (c : CodePoint) : ofNat c.toNat = c := by
  cases c with
  | char c => rw [toNat, ofNat, dif_neg (not_surrogate_toNat c), Char.ofNat_toNat]
  | surrogate n =>
    have hrange : 0xD800 ≤ 0xD800 + (n : Nat) ∧ 0xD800 + (n : Nat) < 0xE000 := by omega
    rw [toNat, ofNat, dif_pos hrange]
    simp

/-- The numbers of code points end below `0x110000`. -/
theorem toNat_lt (c : CodePoint) : c.toNat < 0x110000 := by
  cases c with
  | char c =>
    have hvalid := c.valid
    simp only [UInt32.isValidChar, Nat.isValidChar] at hvalid
    simp only [toNat, Char.toNat]
    omega
  | surrogate n =>
    rw [toNat]
    omega

end CodePoint

/-- A text is a list of code points. -/
abbrev Text := List CodePoint

end BatchScript

/-- The code points of a string. -/
def String.text (s : String) : BatchScript.Text :=
  s.toList.map .char

@[simp]
theorem String.text_eq_nil_iff {s : String} : s.text = [] ↔ s = "" := by
  simp [String.text]

@[simp]
theorem String.char_mem_text {s : String} {c : Char} :
    BatchScript.char c ∈ s.text ↔ c ∈ s.toList := by
  simp [String.text]
