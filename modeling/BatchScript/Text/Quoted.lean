import BatchScript.Text.Printable

/-!
# Quoted texts

Listings and messages show a text between quotation marks on one line. The mark is the apostrophe,
unless the text holds apostrophes and no double quotes. Inside, the mark and the backslash are
escaped, and a character that would not show as itself is written as an escape of its code point.
-/

namespace BatchScript.Text

/-- The mark around a quoted text. -/
def quoteMark (t : Text) : CodePoint :=
  if t.contains '\'' && !t.contains '"' then '"' else '\''

/-- The escape of a code point, in the shortest of the three widths that holds it. -/
def escapePoint (n : Nat) : Text :=
  if n < 0x100 then char '\\' :: char 'x' :: hex 2 n
  else if n < 0x10000 then char '\\' :: char 'u' :: hex 4 n
  else char '\\' :: char 'U' :: hex 8 n

/-- One character of a text between the given marks. -/
def quoteChar (mark c : CodePoint) : Text :=
  if c = mark ∨ c = '\\' then ['\\', c]
  else if c = '\n' then ['\\', 'n']
  else if c = '\r' then ['\\', 'r']
  else if c = '\t' then ['\\', 't']
  else if isPrintable c then [c]
  else escapePoint c.toNat

/-- A text between quotation marks, on one line. -/
def quoted (t : Text) : Text :=
  quoteMark t :: t.flatMap (quoteChar (quoteMark t)) ++ [quoteMark t]

end BatchScript.Text
