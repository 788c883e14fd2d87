import BatchScript.Script

/-!
# Token streams

A stream reads a list of tokens from the front and never goes back. Statements, redirection clauses
and whole scripts may be read from it in turn; each reading leaves the stream behind what it took,
also when it fails.
-/

namespace BatchScript

namespace Token

/-- Tokens and how many of them have been read. -/
structure Stream where
  tokens : List PlacedToken
  position : Nat
  deriving DecidableEq, Repr

namespace Stream

/-- No token is left of so many. -/
structure PastEnd where
  count : Nat
  deriving DecidableEq, Repr

/-- The wording of the fault. -/
def PastEnd.message (f : PastEnd) : Text :=
  "TokenStreamError: Attempted to read past end of ".text ++ Text.ofInt f.count ++
    " tokens".text

/-- A stream of tokens of which none has been read. -/
def ofList (ts : List PlacedToken) : Stream :=
  ⟨ts, 0⟩

/-- The tokens that have not been read. -/
def rest (s : Stream) : List PlacedToken :=
  s.tokens.drop s.position

/-- The stream when `rest` is what has not been read. -/
def leaving (s : Stream) (rest : List PlacedToken) : Stream :=
  ⟨s.tokens, s.tokens.length - rest.length⟩

/-- Whether every token has been read. -/
def atEnd (s : Stream) : Bool :=
  s.tokens.length ≤ s.position

/-- The token some way ahead or behind, if there is one. -/
def peek (s : Stream) (offset : Int) : Option PlacedToken :=
  if s.position + offset < 0 then none else s.tokens[(s.position + offset).toNat]?

/-- The next token and the stream behind it. -/
def next (s : Stream) : Except PastEnd (PlacedToken × Stream) :=
  match s.tokens[s.position]? with
  | none => .error ⟨s.tokens.length⟩
  | some t => .ok (t, ⟨s.tokens, s.position + 1⟩)

/-- The next token if it is of one of the given kinds, and the stream behind it. -/
def nextIf (s : Stream) (kinds : List Kind) : Option (PlacedToken × Stream) :=
  match s.peek 0 with
  | none => none
  | some t => if kinds.contains t.kind then some (t, ⟨s.tokens, s.position + 1⟩) else none

/-- The redirection that the next clauses come to, the stream behind them, and the notes. -/
def clauses (s : Stream) : Option Redirection × Stream × List Log.Entry :=
  let c := Redirection.clauses s.rest
  (c.redirection, s.leaving c.rest, c.log)

/-- The texts of the bare words at the front and the stream behind them. -/
def words (s : Stream) : List Text × Stream :=
  (frontWords s.rest, s.leaving (afterWords s.rest))

/-- The result of a reading of the rest, the stream behind it, and the notes. -/
def take {α : Type} (s : Stream) (r : Reading α) :
    Except SyntaxError α × Stream × List Log.Entry :=
  (r.result, s.leaving r.rest, r.log)

/-- The statement with the given head and operands from the stream. -/
def statement (s : Stream) (head : PlacedToken) :
    Except SyntaxError Statement × Stream × List Log.Entry :=
  s.take (Statement.read head s.rest)

/-- All statements that are left, unless an error comes first. -/
def script (s : Stream) : Except SyntaxError (List Statement) × Stream × List Log.Entry :=
  s.take (Script.read s.rest)

end Stream

end Token

end BatchScript
