import BatchScript.Text.CodePoint

/-!
# Texts

A text is a list of code points, so that positions and columns count code points and every function
recurses on the text itself. Here stand the two classes of blanks, trimming, cutting into words, and
membership in a table of code points.

A *blank* separates words inside a script line: space, tab or carriage return. A *space* is any
Unicode white space or information separator; operands of an assignment are trimmed and cut at
spaces.
-/

namespace BatchScript

namespace Text

/-- Membership of a code point in ascending inclusive ranges. -/
def inRanges : List (Nat × Nat) → Nat → Bool
  | [], _ => false
  | (first, last) :: ranges, n =>
    if n < first then false else n ≤ last || inRanges ranges n

/-- A character that separates words inside a script line. -/
def isBlank (c : CodePoint) : Bool :=
  c == ' ' || c == '\t' || c == '\r'

/-- The spaces: white space and the four information separators, as ascending inclusive ranges. -/
def spaces : List (Nat × Nat) :=
  [(0x0009, 0x000D), (0x001C, 0x0020), (0x0085, 0x0085), (0x00A0, 0x00A0), (0x1680, 0x1680),
   (0x2000, 0x200A), (0x2028, 0x2029), (0x202F, 0x202F), (0x205F, 0x205F), (0x3000, 0x3000)]

/-- A character of white space, line breaks included. -/
def isSpace (c : CodePoint) : Bool :=
  inRanges spaces c.toNat

/-- Every blank is a space. -/
theorem isSpace_of_isBlank {c : CodePoint} (h : isBlank c = true) : isSpace c = true := by
  simp only [isBlank, Bool.or_eq_true, beq_iff_eq] at h
  rcases h with (rfl | rfl) | rfl <;> decide

/-- A line break is a space and no blank. -/
theorem isSpace_newline : isSpace '\n' = true ∧ isBlank '\n' = false := by decide

/-- A text without the spaces at its end. -/
def trimRight (t : Text) : Text :=
  (t.reverse.dropWhile isSpace).reverse

/-- A text without the spaces at its two ends. -/
def trim (t : Text) : Text :=
  trimRight (t.dropWhile isSpace)

/-- The word at the front of a text, which may be empty, and the words behind it. -/
def frontAndWords : Text → Text × List Text
  | [] => ([], [])
  | c :: cs =>
    let (front, rest) := frontAndWords cs
    if isSpace c then ([], if front.isEmpty then rest else front :: rest)
    else (c :: front, rest)

/-- The maximal runs of characters that are not spaces, in order. -/
def words (t : Text) : List Text :=
  let (front, rest) := frontAndWords t
  if front.isEmpty then rest else front :: rest

/-- Texts with one plain space between neighbours. -/
def joinWords (ts : List Text) : Text :=
  [char ' '].intercalate ts

/-- Texts with one line break between neighbours. -/
def joinLines (ts : List Text) : Text :=
  [char '\n'].intercalate ts

/-- A text with the letters `A` to `Z` in lowercase and every other character as it is. -/
def lowerAscii (t : Text) : Text :=
  t.map fun c => (c.char?.map (char ·.toLower)).getD c

/-- A natural number in decimal. -/
def ofNat (n : Nat) : Text :=
  (Nat.toDigits 10 n).map char

/-- A number in decimal, with a sign only when it is negative. -/
def ofInt : Int → Text
  | .ofNat n => ofNat n
  | .negSucc n => char '-' :: ofNat (n + 1)

/-- The lowest four bits of a number as a digit. -/
def hexDigit (n : Nat) : CodePoint :=
  Nat.digitChar (n % 16)

/-- The last `width` hexadecimal digits of a number, in lowercase. -/
def hex : (width : Nat) → Nat → Text
  | 0, _ => []
  | width + 1, n => hex width (n / 16) ++ [hexDigit n]

end Text

end BatchScript
