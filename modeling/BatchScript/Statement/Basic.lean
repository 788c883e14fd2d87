import BatchScript.Token.Basic

/-!
# Statements

A script is a flat list of statements. Chain operators and line breaks are statements too, so the
list alone says how the script is laid out. A token that starts no statement is kept as it is.
-/

namespace BatchScript

/-- One statement of a script. The flag `invisible` says that an `@` hides the command. -/
inductive Statement where
  /-- Prints words, perhaps somewhere else than to the console. -/
  | echo (words : List Text) (invisible : Bool) (redirection : Option Redirection)
  /-- Prints an empty line. The words are a fixed mark in every statement that is read. -/
  | echoLine (words : List Text) (invisible : Bool) (redirection : Option Redirection)
  | exit (words : List Text) (invisible : Bool)
  | goto (target : Text) (invisible : Bool)
  | label (name : Text)
  | rem (text : Text)
  /-- Gives a variable a value. The name is cut at spaces. -/
  | set (name : List Text) (value : Text) (invisible : Bool)
  /-- A redirection without a command. -/
  | redirect (redirection : Redirection)
  | andIfSuccess
  | andAlways
  | newLine
  /-- A command line that starts with no keyword. -/
  | command (text : Text)
  /-- A token that starts no statement. -/
  | unknown (token : PlacedToken)
  deriving DecidableEq, Repr

namespace Statement

/-- The mark that stands for the words of an empty line. -/
def emptyLineMark : Text :=
  "_NEW.LINE_".text

/-- The name of the sort of statement in records. -/
def kindName : Statement → Text
  | .echo .. => "echo".text
  | .echoLine .. => "echo_new_line".text
  | .exit .. => "exit".text
  | .goto .. => "goto".text
  | .label .. => "label".text
  | .rem .. => "rem".text
  | .set .. => "set".text
  | .redirect r => "redirection_".text ++ r.kind.name ++ "_file".text
  | .andIfSuccess => "ampersand_only_if_success".text
  | .andAlways => "ampersand_always".text
  | .newLine => "new_line".text
  | .command .. => "identifier".text
  | .unknown .. => "unknown".text

end Statement

end BatchScript
