import BatchScript.Proofs.Text.Numbers
import BatchScript.Text.Quoted

/-!
# Quoted texts read back

A quoted text tells the text it stands for, whatever follows it: the first character says which mark
ends it, and inside the marks a backslash says how long the escape is that it starts. It stays on
one line.

> `reads_quoted`: a quoted text is read back;
> `newline_not_mem_quoted`: a quoted text holds no line break.
-/

namespace BatchScript

namespace Text

/-- The code point with a number of so many hexadecimal digits. -/
def readPoint (width : Nat) : Reader CodePoint :=
  CodePoint.ofNat <$> readHex width

/-- The character that an escape stands for, behind its backslash. -/
def readEscape : Reader CodePoint := fun t =>
  match t with
  | [] => none
  | 'n' :: t => some ('\n', t)
  | 'r' :: t => some ('\r', t)
  | 't' :: t => some ('\t', t)
  | 'x' :: t => readPoint 2 t
  | 'u' :: t => readPoint 4 t
  | 'U' :: t => readPoint 8 t
  | c :: t => some (c, t)

/-- A text between quotation marks. -/
def readQuoted : Reader Text := fun t =>
  match t with
  | [] => none
  | mark :: t =>
    if mark = '\'' ∨ mark = '"' then readClosed (readMarked mark readEscape) t else none

/-- A code point is read off its number in so many digits. -/
theorem reads_point {width : Nat} {c : CodePoint} (h : c.toNat < 16 ^ width) :
    Reads (readPoint width) c (hex width c.toNat) := by
  have hread := (reads_hex h).map CodePoint.ofNat
  rwa [CodePoint.ofNat_toNat] at hread

/-- The number of a code point has at most eight hexadecimal digits. -/
theorem toNat_lt_of_width (c : CodePoint) : c.toNat < 16 ^ 8 :=
  Nat.lt_trans c.toNat_lt (by decide)

/-- The mark of a quoted text is one of two. -/
theorem quoteMark_eq (t : Text) : quoteMark t = '\'' ∨ quoteMark t = '"' := by
  unfold quoteMark
  split
  · exact .inr rfl
  · exact .inl rfl

section

variable {mark : CodePoint} (hmark : mark = '\'' ∨ mark = '"')

include hmark

theorem readMarked_backslash (t : Text) :
    readMarked mark readEscape (char '\\' :: t) = readEscape t := by
  refine readMarked_escape ?_ t
  rcases hmark with rfl | rfl <;> decide

/-- A code point is read off its escape. -/
theorem reads_escapePoint (c : CodePoint) :
    Reads (readMarked mark readEscape) c (escapePoint c.toNat) := by
  intro rest
  unfold escapePoint
  split
  case isTrue h =>
    rw [List.cons_append, readMarked_backslash hmark]
    exact reads_point h rest
  case isFalse =>
    split
    case isTrue h =>
      rw [List.cons_append, readMarked_backslash hmark]
      exact reads_point h rest
    case isFalse =>
      rw [List.cons_append, readMarked_backslash hmark]
      exact reads_point (toNat_lt_of_width c) rest

/-- A character between marks is read back. -/
theorem reads_quoteChar (c : CodePoint) :
    Reads (readMarked mark readEscape) c (quoteChar mark c) := by
  intro rest
  unfold quoteChar
  split_ifs with hself hline hreturn htab hprintable
  · have hc : c = '\'' ∨ c = '"' ∨ c = '\\' := by
      rcases hself with rfl | rfl
      · exact hmark.imp_right .inl
      · exact .inr (.inr rfl)
    rw [List.cons_append, readMarked_backslash hmark]
    rcases hc with rfl | rfl | rfl <;> rfl
  · rw [List.cons_append, readMarked_backslash hmark, hline]
    rfl
  · rw [List.cons_append, readMarked_backslash hmark, hreturn]
    rfl
  · rw [List.cons_append, readMarked_backslash hmark, htab]
    rfl
  · rw [not_or] at hself
    exact reads_marked_self hself.1 hself.2 rest
  · exact reads_escapePoint hmark c rest

end

/-- A quoted text is read back, whatever follows it. -/
theorem reads_quoted (t : Text) : Reads readQuoted t (quoted t) := by
  intro rest
  have hbody : Reads (readClosed (readMarked (quoteMark t) readEscape)) t
      (t.flatMap (quoteChar (quoteMark t)) ++ [quoteMark t]) :=
    reads_closed readMarked_mark (reads_quoteChar (quoteMark_eq t)) t
  rw [quoted, List.cons_append, List.cons_append, readQuoted, if_pos (quoteMark_eq t)]
  exact hbody rest

/-! ## One line -/

theorem newline_not_mem_hex (width n : Nat) : char '\n' ∉ hex width n := by
  have hdigit : ∀ k, hexDigit k ≠ '\n' := fun k h => by
    have hvalue := hexValue?_hexDigit k
    rw [h] at hvalue
    exact absurd hvalue (by simp [show hexValue? '\n' = none from rfl])
  induction width generalizing n with
  | zero => exact List.not_mem_nil
  | succ width ih =>
    rw [hex, List.mem_append, List.mem_singleton, not_or]
    exact ⟨ih _, (hdigit n).symm⟩

theorem newline_not_mem_escapePoint (n : Nat) : char '\n' ∉ escapePoint n := by
  unfold escapePoint
  split_ifs <;> simp [newline_not_mem_hex]

theorem newline_not_mem_quoteChar {mark c : CodePoint} (hmark : mark ≠ '\n') :
    char '\n' ∉ quoteChar mark c := by
  unfold quoteChar
  split_ifs with hself hline
  · have hc : '\n' ≠ c := by
      rcases hself with rfl | rfl
      · exact hmark.symm
      · decide
    simp [hc]
  · decide
  · decide
  · decide
  · simpa using Ne.symm hline
  · exact newline_not_mem_escapePoint _

/-- A quoted text stays on one line. -/
@[simp]
theorem newline_not_mem_quoted (t : Text) : char '\n' ∉ quoted t := by
  have hmark : quoteMark t ≠ '\n' := by
    rcases quoteMark_eq t with h | h <;> rw [h] <;> decide
  have hbody : char '\n' ∉ t.flatMap (quoteChar (quoteMark t)) := by
    rw [List.mem_flatMap]
    rintro ⟨c, -, hc⟩
    exact newline_not_mem_quoteChar hmark hc
  rw [quoted, List.mem_append, List.mem_cons, List.mem_singleton]
  rintro ((h | h) | h)
  · exact hmark h.symm
  · exact hbody h
  · exact hmark h.symm

end Text

end BatchScript
