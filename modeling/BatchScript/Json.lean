import BatchScript.Text.Basic

/-!
# JSON values and their indented form

A value is written over several lines: every item of a list and every field of an object stands on
a line of its own, two spaces further in than what holds it. An object keeps the order of its
fields. Texts are written in ASCII; a character above the basic plane takes two escapes.
-/

namespace BatchScript

/-- A JSON value without fractions. -/
inductive Json where
  | null
  | bool (b : Bool)
  | int (n : Int)
  | text (t : Text)
  | list (items : List Json)
  | object (fields : List (Text × Json))

namespace Json

/-- The escape of one unit of sixteen bits. -/
def unitEscape (n : Nat) : Text :=
  char '\\' :: char 'u' :: Text.hex 4 n

/-- One character inside a JSON text: short escapes where they exist, the graphic characters of
ASCII and the space as they are, and all others by their units of sixteen bits. -/
def escapeChar (c : CodePoint) : Text :=
  if c = '"' ∨ c = '\\' then ['\\', c]
  else if c = '\n' then ['\\', 'n']
  else if c = '\r' then ['\\', 'r']
  else if c = '\t' then ['\\', 't']
  else if c = '\u0008' then ['\\', 'b']
  else if c = '\u000c' then ['\\', 'f']
  else if 0x20 ≤ c.toNat ∧ c.toNat ≤ 0x7E then [c]
  else if c.toNat < 0x10000 then unitEscape c.toNat
  else
    let n := c.toNat - 0x10000
    unitEscape (0xD800 + n / 0x400) ++ unitEscape (0xDC00 + n % 0x400)

/-- A text between double quotes. -/
def writeText (t : Text) : Text :=
  char '"' :: t.flatMap escapeChar ++ [char '"']

/-- A line break and the given number of steps of indentation. -/
def newLine (depth : Nat) : Text :=
  char '\n' :: List.replicate (2 * depth) ' '

/-- A bracketed sequence of written members, each on a line of its own; an empty one stays on one
line. -/
def block (depth : Nat) (left right : CodePoint) : List Text → Text
  | [] => [left, right]
  | members =>
    left :: (newLine (depth + 1) ++
      (char ',' :: newLine (depth + 1)).intercalate members ++ newLine depth ++ [right])

mutual

/-- The text of a value that stands `depth` steps inside others. -/
def writeAt (depth : Nat) : Json → Text
  | .null => "null".text
  | .bool b => if b then "true".text else "false".text
  | .int n => Text.ofInt n
  | .text t => writeText t
  | .list items => block depth '[' ']' (writeItems (depth + 1) items)
  | .object fields => block depth '\x7b' '\x7d' (writeFields (depth + 1) fields)

/-- The texts of the items of a list. -/
def writeItems (depth : Nat) : List Json → List Text
  | [] => []
  | item :: items => writeAt depth item :: writeItems depth items

/-- The texts of the fields of an object. -/
def writeFields (depth : Nat) : List (Text × Json) → List Text
  | [] => []
  | (key, value) :: fields =>
    (writeText key ++ char ':' :: char ' ' :: writeAt depth value) :: writeFields depth fields

end

/-- The indented text of a value. -/
def write (j : Json) : Text :=
  writeAt 0 j

end Json

end BatchScript
