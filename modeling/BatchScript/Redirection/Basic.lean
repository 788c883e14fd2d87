import BatchScript.Text.Quoted

/-!
# Redirections

A redirection sends the output or the errors of a command to a target, which it overwrites or
extends. The target is a file name, or a handle such as `&1`.
-/

namespace BatchScript

/-- Which stream goes where, and whether the target is extended. -/
inductive Redirection.Kind where
  | overwrite
  | append
  | stderrOverwrite
  | stderrAppend
  deriving DecidableEq, Repr

/-- A stream sent to a target. -/
structure Redirection where
  kind : Redirection.Kind
  target : Text
  deriving DecidableEq, Repr

namespace Redirection

namespace Kind

/-- All kinds. -/
def all : List Kind :=
  [.overwrite, .append, .stderrOverwrite, .stderrAppend]

/-- The operator that a script writes. -/
def spelling : Kind → Text
  | .overwrite => ['>']
  | .append => ['>', '>']
  | .stderrOverwrite => ['2', '>']
  | .stderrAppend => ['2', '>', '>']

/-- The name in records. -/
def name : Kind → Text
  | .overwrite => "overwrite".text
  | .append => "append".text
  | .stderrOverwrite => "stderr_overwrite".text
  | .stderrAppend => "stderr_append".text

/-- The name in capitals, as listings show it. -/
def capitalName : Kind → Text
  | .overwrite => "OVERWRITE".text
  | .append => "APPEND".text
  | .stderrOverwrite => "STDERR_OVERWRITE".text
  | .stderrAppend => "STDERR_APPEND".text

/-- The kind with a given name. -/
def ofName? (n : Text) : Option Kind :=
  all.find? (·.name == n)

/-- The name of a kind finds that kind. -/
theorem ofName?_name (k : Kind) : ofName? k.name = some k := by
  cases k <;> decide

end Kind

/-- A name that belongs to no kind of redirection. -/
structure UnknownKind where
  name : Text

/-- The wording of an unknown kind. -/
def UnknownKind.message (u : UnknownKind) : Text :=
  Text.quoted u.name ++ " is not a valid RedirectionKind".text

/-- How a script writes a redirection: a handle follows its operator at once, a file name after a
space. -/
def text (r : Redirection) : Text :=
  if r.target.head? = some (char '&') then r.kind.spelling ++ r.target
  else r.kind.spelling ++ char ' ' :: r.target

/-- How listings show a redirection. -/
def listing (r : Redirection) : Text :=
  "Redirection(kind=<RedirectionKind.".text ++ r.kind.capitalName ++ ": ".text ++
    Text.quoted r.kind.name ++ ">, target=".text ++ Text.quoted r.target ++ [char ')']

end Redirection

end BatchScript
