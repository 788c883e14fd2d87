import BatchScript.Log
import BatchScript.Statement.Basic

/-!
# Listings of statements

A listing shows a statement on one line: the name of its sort and its fields in order, with every
text quoted.
-/

namespace BatchScript

namespace Listing

/-- A flag. -/
def flag (b : Bool) : Text :=
  if b then "True".text else "False".text

/-- A sequence of texts; a comma follows the only one. -/
def sequence : List Text → Text
  | [t] => char '(' :: Text.quoted t ++ [char ',', char ')']
  | ts => char '(' :: [char ',', char ' '].intercalate (ts.map Text.quoted) ++ [char ')']

/-- A named field. -/
def field (name : String) (value : Text) : Text :=
  name.text ++ char '=' :: value

/-- A name and its fields. -/
def call (name : Text) (fields : List Text) : Text :=
  name ++ char '(' :: [char ',', char ' '].intercalate fields ++ [char ')']

end Listing

open Listing

/-- The name that listings give a redirection without a command. -/
def Redirection.Kind.fileName : Redirection.Kind → Text
  | .overwrite => "RedirectionOverwriteFile".text
  | .append => "RedirectionAppendFile".text
  | .stderrOverwrite => "RedirectionStderrOverwriteFile".text
  | .stderrAppend => "RedirectionStderrAppendFile".text

/-- How listings show a statement. -/
def Statement.listing : Statement → Text
  | .echo words invisible redirection =>
    call "Echo".text [field "value" (sequence words), field "invisible" (flag invisible),
      field "redirection" (Log.showRedirection redirection)]
  | .echoLine words invisible redirection =>
    call "EchoNewLine".text [field "value" (sequence words), field "invisible" (flag invisible),
      field "redirection" (Log.showRedirection redirection)]
  | .exit words invisible =>
    call "Exit".text [field "value" (sequence words), field "invisible" (flag invisible)]
  | .goto target invisible =>
    call "Goto".text [field "label" (Text.quoted target), field "invisible" (flag invisible)]
  | .label name => call "Label".text [field "label" (Text.quoted name)]
  | .rem text => call "Rem".text [field "text" (Text.quoted text)]
  | .set name value invisible =>
    call "Set".text [field "variable" (sequence name), field "value" (Text.quoted value),
      field "invisible" (flag invisible)]
  | .redirect r => call r.kind.fileName [field "target" (Text.quoted r.target)]
  | .andIfSuccess => call "AmpersandOnlyIfSuccess".text []
  | .andAlways => call "AmpersandAlways".text []
  | .newLine => call "NewLine".text []
  | .command text => call "Identifier".text [field "text" (Text.quoted text)]
  | .unknown token => call "Unknown".text [field "token" token.listing]

end BatchScript
