import BatchScript.Text.Basic

/-!
# Syntax errors

Input that stops the reading of a script, with the place of the token at fault where it is known.
-/

namespace BatchScript

/-- Malformed input. -/
structure SyntaxError where
  note : Text
  line : Option Int
  column : Option Int
  deriving DecidableEq, Repr

namespace SyntaxError

/-- An assignment without a separator. -/
def invalidAssignment (line column : Option Int) : SyntaxError :=
  ⟨"invalid assignment: missing separator".text, line, column⟩

/-- A number that may be missing. -/
def showNumber : Option Int → Text
  | none => "None".text
  | some n => Text.ofInt n

/-- The wording of an error. The place is left out when the line is unknown, that is missing or
zero. -/
def message (e : SyntaxError) : Text :=
  if e.line.getD 0 = 0 then e.note
  else e.note ++ " (line ".text ++ showNumber e.line ++ ", col ".text ++
    showNumber e.column ++ [char ')']

end SyntaxError

end BatchScript
