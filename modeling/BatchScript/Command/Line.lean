import BatchScript.Command.Options
import BatchScript.Command.Run

/-!
# The command line

From arguments and a directory to what a command prints, the directory it leaves and its exit
status: 0 after a run that succeeds and after a call for help, 1 after a run that fails, 2 after a
mistake in the arguments. Notes go to the error stream, before the message of a failure, when the
command is asked to be verbose.
-/

namespace BatchScript

namespace Command

/-- What a command leaves behind. -/
structure Outcome where
  exit : Nat
  stdout : Text
  stderr : Text
  directory : Directory

/-- The usage of the command. -/
def usage : Text :=
  ("usage: batchc [-h] [-s] [--tokens | --json | --emit] [-o OUTFILE] [--verbose]\n" ++
    "              source\n").text

/-- The help text after the usage. -/
def description : Text :=
  ("\n" ++
    "Parse batch scripts into statement trees.\n" ++
    "\n" ++
    "positional arguments:\n" ++
    "  source                Filename or raw source (with -s)\n" ++
    "\n" ++
    "options:\n" ++
    "  -h, --help            show this help message and exit\n" ++
    "  -s, --string          Interpret source as literal string\n" ++
    "  --tokens              Print the token stream\n" ++
    "  --json                Print the statements as JSON\n" ++
    "  --emit                Print normalised batch source\n" ++
    "  -o OUTFILE, --out OUTFILE\n" ++
    "                        Output to file\n" ++
    "  --verbose             Enable debug logging\n").text

/-- The form of output that an option asks for. -/
def Flag.form : Option Flag → Form
  | some .tokens => .tokens
  | some .json => .json
  | some .emit => .script
  | _ => .statements

/-- The request that options make. -/
def Options.request (o : Options) : Request :=
  ⟨o.source.getD [], o.string, (Flag.form o.form).name, o.out⟩

/-- Lines with a line break after each. -/
def lines (ts : List Text) : Text :=
  ts.flatMap (· ++ [char '\n'])

/-- The outcome of a run. -/
def Report.outcomeOf (r : Report) (verbose : Bool) : Outcome :=
  let notes := if verbose then r.log.map Log.Entry.line else []
  match r.outcome with
  | .ok _ => ⟨0, r.printed, lines notes, r.directory⟩
  | .error f => ⟨1, r.printed, lines (notes ++ ["error: ".text ++ f.message]), r.directory⟩

/-- The paths of the files that a command may read or write. -/
def paths (argv : List Text) : List Text :=
  match Options.ofArguments argv with
  | .error _ => []
  | .ok o => o.source.toList ++ o.out.toList

/-- The outcome of a command with the given arguments over a directory. -/
def execute (argv : List Text) (d : Directory) : Outcome :=
  match Options.ofArguments argv with
  | .error .help => ⟨0, usage ++ description, [], d⟩
  | .error (.misuse message) =>
    ⟨2, [], usage ++ "batchc: error: ".text ++ message ++ [char '\n'], d⟩
  | .ok o => (run o.request d).outcomeOf o.verbose

end Command

end BatchScript
