import BatchScript.Source.Place

/-!
# Cursors

A cursor reads a source one character at a time and keeps the place. Its position is any integer,
since a caller may set it: at or past the end nothing is left; below zero the position counts from
the end of the source, as far back as the source is long, and reading walks on to position zero.
-/

namespace BatchScript

/-- A source, the position of the next character, and its place. -/
structure Cursor where
  source : Text
  position : Int
  place : Place
  deriving DecidableEq, Repr

namespace Cursor

/-- Why no character can be read. -/
inductive Fault where
  /-- The cursor stands at or past the end of its source. -/
  | pastEnd (position line : Int)
  /-- The cursor stands further before the start than the source is long. -/
  | outOfRange
  deriving DecidableEq, Repr

/-- The wording of a fault. -/
def Fault.message : Fault → Text
  | .pastEnd position line =>
    "CharacterStreamError: Attempted to read past end of source at position=<".text ++
      Text.ofInt position ++ ">, line=<".text ++ Text.ofInt line ++ [char '>']
  | .outOfRange => "string index out of range".text

/-- A cursor at the start of a source. -/
def ofSource (source : Text) : Cursor :=
  ⟨source, 0, .start⟩

/-- Whether the cursor stands at or past the end. -/
def atEnd (c : Cursor) : Bool :=
  c.source.length ≤ c.position

/-- The character some way ahead or behind, if the source has one there. A position below zero
holds no character here. -/
def peek (c : Cursor) (offset : Int) : Option CodePoint :=
  if c.position + offset < 0 then none else c.source[(c.position + offset).toNat]?

/-- What a cursor at or behind position zero has still to read. -/
def rest (c : Cursor) : Text :=
  c.source.drop c.position.toNat

/-- The next character and the cursor behind it. -/
def next (c : Cursor) : Except Fault (CodePoint × Cursor) :=
  if c.atEnd then .error (.pastEnd c.position c.place.line)
  else
    let index := if c.position < 0 then c.source.length + c.position else c.position
    match if index < 0 then none else c.source[index.toNat]? with
    | none => .error .outOfRange
    | some ch => .ok (ch, ⟨c.source, c.position + 1, c.place.after ch⟩)

/-- The cursor behind the next `count` characters. -/
def advance : (count : Nat) → Cursor → Except Fault Cursor
  | 0, c => .ok c
  | count + 1, c => do
    let (_, c) ← c.next
    c.advance count

/-- A cursor below zero walks on to the start of its source; every other cursor stays. -/
def toStart (c : Cursor) : Except Fault Cursor :=
  c.advance (-c.position).toNat

/-- The cursor behind the part of its rest that precedes `rest`, at the given place. -/
def leaving (c : Cursor) (rest : Text) (place : Place) : Cursor :=
  ⟨c.source, c.position + (c.rest.length - rest.length), place⟩

end Cursor

end BatchScript
