import BatchScript.Directory
import BatchScript.Page.Basic
import BatchScript.Script
import BatchScript.Statement.Listing
import BatchScript.Statement.Record
import BatchScript.Text.LineBreak
import BatchScript.Text.Lowercase

/-!
# Running a command

A run reads a script from a file or takes it as it is given, brings it into one of four forms, and
prints the outcome or saves it to a file. All that can fail comes before the first effect, so a run
that fails leaves the directory alone and prints nothing. The one exception is an output with
surrogates, which has no bytes to write to the file that has been opened for it.
-/

namespace BatchScript

namespace Command

/-- The forms of output. -/
inductive Form where
  /-- A listing of the statements. -/
  | statements
  /-- A listing of the tokens. -/
  | tokens
  /-- The records of the statements. -/
  | json
  /-- The script in normal form. -/
  | script
  deriving DecidableEq, Repr

namespace Form

/-- All forms. -/
def all : List Form :=
  [.statements, .tokens, .json, .script]

/-- The name of a form. -/
def name : Form → Text
  | .statements => "ast".text
  | .tokens => "tokens".text
  | .json => "json".text
  | .script => "emit".text

/-- The form with a given name. -/
def ofName? (n : Text) : Option Form :=
  all.find? (·.name == n)

end Form

/-- What to run: a script or the path of one, the name of a form, and the path to save to. An empty
path to save to asks for printing. -/
structure Request where
  source : Text
  isScript : Bool
  form : Text
  out : Option Text

/-- Why a run fails. -/
inductive Failure where
  | unknownForm (name : Text)
  | notAScriptFile
  | unopened (fault : Directory.Fault)
  | undecodable (fault : Utf8.Fault)
  /-- The output has no bytes, which comes to light when its file has been opened. -/
  | unencodable (surrogates : Utf8.Surrogates)
  | malformed (error : SyntaxError)
  deriving DecidableEq, Repr

/-- The wording of a failure. -/
def Failure.message : Failure → Text
  | .unknownForm name => "Unknown output mode: ".text ++ Text.quoted name
  | .notAScriptFile => "Only .bat and .cmd files are supported.".text
  | .unopened fault => fault.message
  | .undecodable fault => fault.message
  | .unencodable surrogates => surrogates.message
  | .malformed error => error.message

/-- Whether a failure comes to light when a file is written. Every other one comes before that. -/
def Failure.isOfWriting : Failure → Bool
  | .unencodable _ => true
  | _ => false

/-- What comes of a run: its outcome, the directory and the printed text after it, and its notes. -/
structure Report where
  outcome : Except Failure Text
  directory : Directory
  printed : Text
  log : List Log.Entry

/-- The ends of the names of script files. -/
def scriptSuffixes : List Text :=
  [".bat".text, ".cmd".text]

/-- Whether a path names a script file, in letters of either case. -/
def isScriptPath (path : Text) : Bool :=
  scriptSuffixes.any (·.isSuffixOf (Text.lower path))

/-- The script in a file: UTF-8, with any of the three line breaks. -/
def loadScript (d : Directory) (path : Text) : Except Failure Text :=
  if isScriptPath path then
    match d.load path with
    | .error fault => .error (.unopened fault)
    | .ok bytes =>
      match Utf8.decode bytes with
      | .error fault => .error (.undecodable fault)
      | .ok text => .ok (Text.unifyLineBreaks text)
  else .error .notAScriptFile

/-- The script that a request means and the form that it asks for. -/
def Request.script (r : Request) (d : Directory) : Except Failure (Form × Text) :=
  match Form.ofName? r.form with
  | none => .error (.unknownForm r.form)
  | some form =>
    if r.isScript then .ok (form, r.source)
    else (loadScript d r.source).map (form, ·)

/-- Statements in a form other than tokens. -/
def showStatements (statements : List Statement) : Form → Text
  | .json => (Json.list (statements.map Statement.record)).write
  | .script => Script.render statements
  | _ => Text.joinLines (statements.map Statement.listing)

/-- A script in one of the forms, and the notes made on the way. -/
def showScript (form : Form) (script : Text) : Except SyntaxError Text × List Log.Entry :=
  let tokens := Token.ofText script
  let counted := Log.Entry.lexed tokens.length
  if form = .tokens then
    (.ok (Text.joinLines (tokens.map PlacedToken.listing)), [counted])
  else
    let reading := Script.read tokens
    match reading.result with
    | .error e => (.error e, counted :: reading.log)
    | .ok statements =>
      (.ok (showStatements statements form),
        counted :: reading.log ++ [.parsed statements.length])

/-- The report of a run that fails. -/
def failed (d : Directory) (log : List Log.Entry) (f : Failure) : Report :=
  ⟨.error f, d, [], log⟩

/-- The report of a run with the given output, once it is printed or saved. Opening the file empties
it, and it stays empty when the output has no bytes. -/
def deliver (r : Request) (d : Directory) (log : List Log.Entry) (output : Text) : Report :=
  match r.out with
  | none | some [] => ⟨.ok output, d, output ++ [char '\n'], log⟩
  | some path =>
    let encoded := Utf8.encode output
    match d.save path (encoded.toOption.getD []) with
    | .error fault => failed d log (.unopened fault)
    | .ok d =>
      match encoded with
      | .error surrogates => failed d log (.unencodable surrogates)
      | .ok _ => ⟨.ok output, d, [], log ++ [.wrote r.form path]⟩

/-- A run over a directory. -/
def run (r : Request) (d : Directory) : Report :=
  match r.script d with
  | .error f => failed d [] f
  | .ok (form, script) =>
    match showScript form script with
    | (.error e, log) => failed d log (.malformed e)
    | (.ok output, log) => deliver r d log output

end Command

end BatchScript
