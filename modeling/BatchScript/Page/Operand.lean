import BatchScript.Statement.Assignment

/-!
# Written operands

An operand of an assignment is written so that reading gives it back: operators, quotes and carets
take a caret, and so does white space, except for a lone plain space, which separates words and is
put back when they are joined. An operand that starts or ends with a quote or with white space gets
one more layer of quotes, since reading trims it and takes one layer away.
-/

namespace BatchScript

namespace Operand

/-- A character that takes a caret wherever it stands. -/
def isSpecial (c : CodePoint) : Bool :=
  c == '<' || c == '>' || c == '|' || c == '&' || c == '^' || c == '"'

/-- Whether reading would take something from an end of the operand. -/
def needsQuotes (t : Text) : Bool :=
  t.head? == some (char '"') || t.getLast? == some (char '"') || t != Text.trim t

/-- The operand in the layer of quotes that it needs. -/
def wrap (t : Text) : Text :=
  if needsQuotes t then char '"' :: t ++ [char '"'] else t

/-- Whether a text starts with white space. -/
def startsWithSpace : Text → Bool
  | [] => false
  | c :: _ => Text.isSpace c

/-- A text with its carets. A plain space goes without one when neither neighbour is white space;
the first argument says whether the character before the text is. -/
def escape : (afterSpace : Bool) → Text → Text
  | _, [] => []
  | afterSpace, c :: cs =>
    if isSpecial c then char '^' :: c :: escape false cs
    else if Text.isSpace c then
      if c != ' ' || afterSpace || startsWithSpace cs then char '^' :: c :: escape true cs
      else c :: escape true cs
    else c :: escape false cs

/-- An operand as it is written. -/
def write (t : Text) : Text :=
  escape false (wrap t)

end Operand

end BatchScript
