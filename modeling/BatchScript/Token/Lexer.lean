import BatchScript.Source.Cursor
import BatchScript.Token.Scanner

/-!
# Lexers

A lexer takes tokens from a cursor that a caller may have put anywhere, in any mode. A cursor below
zero first walks on to the start of its source, which fails only when it stands further back than
the source is long; from there on a lexer never fails.
-/

namespace BatchScript

namespace Token

/-- A cursor and the mode in which it reads. -/
structure Lexer where
  cursor : Cursor
  mode : Mode
  deriving DecidableEq, Repr

namespace Lexer

/-- A lexer at the start of a source. -/
def ofSource (source : Text) : Lexer :=
  ⟨.ofSource source, .start⟩

/-- The scanner of what a lexer at or behind position zero has still to read. -/
def scanner (l : Lexer) : Scanner :=
  ⟨l.mode, l.cursor.place, l.cursor.rest⟩

/-- The lexer where a scanner of its rest has come to. -/
def upTo (l : Lexer) (s : Scanner) : Lexer :=
  ⟨l.cursor.leaving s.rest s.place, s.mode⟩

/-- The lexer once its cursor has walked on to the start of its source. -/
def toStart (l : Lexer) : Except Cursor.Fault Lexer := do
  let c ← l.cursor.toStart
  return ⟨c, l.mode⟩

/-- The next token, if one is left, and the lexer behind it. -/
def next (l : Lexer) : Except Cursor.Fault (Option PlacedToken × Lexer) := do
  let l ← l.toStart
  let (token, s) := l.scanner.next
  return (token, l.upTo s)

/-- All tokens up to the end of the source, and the lexer there. -/
def drain (l : Lexer) : Except Cursor.Fault (List PlacedToken × Lexer) := do
  let l ← l.toStart
  let (tokens, s) := l.scanner.drain
  return (tokens, l.upTo s)

/-- The lexer behind the blanks at its cursor. -/
def skipBlanks (l : Lexer) : Except Cursor.Fault Lexer := do
  let l ← l.toStart
  let rest := l.cursor.rest.dropWhile Text.isBlank
  let place := l.cursor.place.afterText (l.cursor.rest.takeWhile Text.isBlank)
  return { l with cursor := l.cursor.leaving rest place }

/-- The operator that starts at the cursor, if there is one, and the lexer behind as many
characters as it has. Only characters at or behind position zero are looked at. -/
def operator (l : Lexer) : Except Cursor.Fault (Option Token × Lexer) := do
  match operator? ([0, 1, 2].filterMap l.cursor.peek) with
  | none => return (none, l)
  | some (kind, _) =>
    let token := ofKind kind
    let c ← l.cursor.advance token.value.length
    return (some token, { l with cursor := c })

/-- The bare word at the cursor, which may be empty, and the lexer behind it. There is no word
below position zero. -/
def word (l : Lexer) : Text × Lexer :=
  if l.cursor.position < 0 then ([], l)
  else
    let w := Word.read false l.cursor.rest
    (w.value, { l with cursor := l.cursor.leaving w.rest (l.cursor.place.afterText w.raw) })

/-- The next character and the lexer behind it. -/
def advance (l : Lexer) : Except Cursor.Fault (CodePoint × Lexer) := do
  let (ch, c) ← l.cursor.next
  return (ch, { l with cursor := c })

end Lexer

end Token

end BatchScript
