import BatchScript.Token.Basic

/-!
# Log entries

What a run notes about a script besides its result: heads that start no statement, redirections that
are dangling or overridden, assignments without a separator, and the progress of the run itself.
Every entry is data; `Entry.line` is its wording.
-/

namespace BatchScript.Log

/-- One note. -/
inductive Entry where
  /-- The token starts no statement. -/
  | unknownHead (head : PlacedToken)
  /-- The operands of the assignment at the head, joined, hold no separator. -/
  | missingSeparator (head : PlacedToken) (operands : Text)
  /-- No word follows the marker; the redirection before it stays in force. -/
  | dangling (marker : PlacedToken) (kept : Option Redirection)
  /-- A redirection to the first target gives way to a later one. -/
  | overridden (replaced : Text) (marker : PlacedToken) (target : Text)
  /-- So many tokens have been read. -/
  | lexed (count : Nat)
  /-- So many statements have been read. -/
  | parsed (count : Nat)
  /-- Output of the named form has been saved to a file. -/
  | wrote (form file : Text)
  deriving DecidableEq, Repr

/-- The wording of a redirection that may be missing. -/
def showRedirection : Option Redirection → Text
  | none => "None".text
  | some r => r.listing

/-- The text of an entry after its level and its origin. -/
def Entry.note : Entry → Text
  | .unknownHead head =>
    "Unknown statement head ".text ++ head.kind.name ++ char ' ' :: Text.quoted head.value ++
      " at ".text ++ head.place
  | .missingSeparator head operands =>
    "SET at ".text ++ head.place ++ " has no '=': ".text ++ Text.quoted operands
  | .dangling marker kept =>
    "Redirection ".text ++ marker.kind.name ++ " at ".text ++ marker.place ++
      " has no target; keeping ".text ++ showRedirection kept
  | .overridden replaced marker target =>
    "Redirection to ".text ++ Text.quoted replaced ++ " overridden by ".text ++
      marker.kind.name ++ char ' ' :: Text.quoted target
  | .lexed count => "Lexed ".text ++ Text.ofInt count ++ " tokens".text
  | .parsed count => "Parsed ".text ++ Text.ofInt count ++ " statements".text
  | .wrote form file => "Wrote ".text ++ form ++ " output to ".text ++ file

/-- The level and the origin of an entry. -/
def Entry.origin : Entry → String
  | .unknownHead .. | .missingSeparator .. => "DEBUG batchc.batch_parser"
  | .dangling .. | .overridden .. => "DEBUG batchc.batch_redirection"
  | .lexed .. | .parsed .. => "DEBUG batchc.batch_cli"
  | .wrote .. => "INFO batchc.batch_cli"

/-- A whole line of the log. -/
def Entry.line (e : Entry) : Text :=
  e.origin.text ++ ": ".text ++ e.note

end BatchScript.Log
