import BatchScript.Text.Basic

/-!
# Assignments

The operands of an assignment are joined and cut at the first equals sign. Either side is trimmed
and loses one layer of double quotes; the name is then cut at spaces.
-/

namespace BatchScript

/-- A name, as its parts between spaces, and a value. -/
structure Assignment where
  name : List Text
  value : Text
  deriving DecidableEq, Repr

namespace Assignment

/-- A text without the double quote at its front, if it has one. -/
def dropOpeningQuote : Text → Text
  | [] => []
  | c :: cs => if c = '"' then cs else c :: cs

/-- A text without one layer of double quotes. Each end loses at most one quote, whether the other
end has one or not. -/
def stripQuotes (t : Text) : Text :=
  (dropOpeningQuote (dropOpeningQuote t).reverse).reverse

/-- One side of an assignment as it is meant. -/
def side (t : Text) : Text :=
  stripQuotes (Text.trim t)

/-- The assignment that a text makes; none without an equals sign. -/
def ofText? (t : Text) : Option Assignment :=
  match t.dropWhile (· != char '=') with
  | [] => none
  | _ :: value => some ⟨Text.words (side (t.takeWhile (· != char '='))), side value⟩

end Assignment

end BatchScript
