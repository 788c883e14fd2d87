import BatchScript.Text.Digit
import BatchScript.Text.Quoted

/-!
# Options of the command line

The arguments of a command are sorted first: each is a value, an option, or an option that does not
exist. A long option may be cut short as long as it stays unique and may take its value behind an
equals sign. Short options may stand together behind one dash, and the last of them may have its
value right behind it; an equals sign behind the first of them is skipped. After two dashes alone
every argument is a value. A dash alone, a negative number, and a text with a space that names no
option are values too.

Options then act from left to right. The first mistake ends the reading, and so does a call for
help.
-/

namespace BatchScript

namespace Command

/-- The options that there are. -/
inductive Flag where
  | help
  | string
  | tokens
  | json
  | emit
  | out
  | verbose
  deriving DecidableEq, Repr

namespace Flag

/-- How an option is spelled: at most one short form first, then the long one. -/
def spellings : Flag → List Text
  | .help => ["-h".text, "--help".text]
  | .string => ["-s".text, "--string".text]
  | .tokens => ["--tokens".text]
  | .json => ["--json".text]
  | .emit => ["--emit".text]
  | .out => ["-o".text, "--out".text]
  | .verbose => ["--verbose".text]

/-- All options in the order of the usage text. -/
def all : List Flag :=
  [.help, .string, .tokens, .json, .emit, .out, .verbose]

/-- The name of an option in messages. -/
def display (f : Flag) : Text :=
  [char '/'].intercalate f.spellings

/-- Whether an option takes a value. -/
def takesValue (f : Flag) : Bool :=
  f == .out

/-- All spellings with their options. -/
def table : List (Text × Flag) :=
  all.flatMap fun f => f.spellings.map (·, f)

/-- The option with a given spelling. -/
def ofSpelling? (t : Text) : Option Flag :=
  table.lookup t

end Flag

/-- One argument, sorted. -/
inductive Argument where
  | value (t : Text)
  /-- The two dashes behind which all is a value. -/
  | divider
  /-- An option that does not exist. -/
  | unknown (t : Text)
  /-- An option, in its long or its short form, and the text joined to it, if there is one. -/
  | option (flag : Flag) (long : Bool) (joined : Option Text)
  deriving DecidableEq, Repr

namespace Argument

/-- Whether a text is a dash and a number, whole or with a decimal point. One line break may stand
behind it. -/
def isNegativeNumber (t : Text) : Bool :=
  let body := match t with
    | '-' :: cs => if cs.getLast? = some (char '\n') then cs.dropLast else cs
    | _ => []
  match body.dropWhile Text.isDecimal with
  | [] => !body.isEmpty
  | '.' :: fraction => !fraction.isEmpty && fraction.all Text.isDecimal
  | _ => false

/-- The part of an argument before its first equals sign. -/
def beforeEquals (t : Text) : Text :=
  t.takeWhile (· != char '=')

/-- What stands behind the first equals sign of an argument, if it has one. -/
def afterEquals? (t : Text) : Option Text :=
  match t.dropWhile (· != char '=') with
  | [] => none
  | _ :: behind => some behind

/-- The options that an argument may mean without spelling one in full, with their spellings: the
long ones that it begins, or the short one that it begins with. -/
def candidates (t : Text) : List (Text × Argument) :=
  match t with
  | '-' :: '-' :: _ =>
    (Flag.table.filter fun (spelling, _) => (beforeEquals t).isPrefixOf spelling).map
      fun (spelling, flag) => (spelling, .option flag true (afterEquals? t))
  | _ =>
    (Flag.table.filter fun (spelling, _) => spelling == t.take 2).map
      fun (spelling, flag) => (spelling, .option flag false (some (t.drop 2)))

/-- The sort of an argument that spells no option. -/
def sortPlain (t : Text) : Argument :=
  if isNegativeNumber t || t.contains ' ' then .value t else .unknown t

/-- Whether a spelling is a long one. -/
def isLong (t : Text) : Bool :=
  "--".text.isPrefixOf t

/-- The sort of an argument before any two dashes alone, or the message that it could mean several
options. -/
def sort (t : Text) : Except Text Argument :=
  match t with
  | '-' :: _ :: _ =>
    match Flag.ofSpelling? t with
    | some flag => .ok (.option flag (isLong t) none)
    | none =>
      match afterEquals? t, Flag.ofSpelling? (beforeEquals t) with
      | some joined, some flag => .ok (.option flag (isLong t) (some joined))
      | _, _ =>
        match candidates t with
        | [] => .ok (sortPlain t)
        | [(_, a)] => .ok a
        | several =>
          .error ("ambiguous option: ".text ++ t ++ " could match ".text ++
            [char ',', char ' '].intercalate (several.map (·.1)))
  | _ => .ok (.value t)

/-- The arguments of a command, sorted. -/
def sortAll : List Text → Except Text (List Argument)
  | [] => .ok []
  | t :: ts =>
    if t = "--".text then .ok (.divider :: ts.map .value)
    else do
      let a ← sort t
      let rest ← sortAll ts
      return a :: rest

end Argument

/-- What the arguments ask for. -/
structure Options where
  source : Option Text
  string : Bool
  /-- The option for the form of the output, if one was given. -/
  form : Option Flag
  out : Option Text
  verbose : Bool
  /-- Arguments that nothing asked for. -/
  extra : List Text
  deriving DecidableEq, Repr

/-- Why the reading of arguments ends early. -/
inductive Stop where
  | help
  | misuse (message : Text)
  deriving DecidableEq, Repr

/-- A mistake in the use of an option. -/
def misuseOf (f : Flag) (note : Text) : Stop :=
  .misuse ("argument ".text ++ f.display ++ ": ".text ++ note)

namespace Options

/-- What a command asks for before its arguments are read. -/
def start : Options :=
  ⟨none, false, none, none, false, []⟩

/-- One option acts. Options for different forms of output exclude each other. -/
def act (o : Options) (flag : Flag) (value : Text) : Except Stop Options :=
  match flag with
  | .help => .error .help
  | .string => .ok { o with string := true }
  | .out => .ok { o with out := some value }
  | .verbose => .ok { o with verbose := true }
  | .tokens | .json | .emit =>
    match o.form with
    | none => .ok { o with form := some flag }
    | some earlier =>
      if earlier = flag then .ok o
      else .error (misuseOf flag ("not allowed with argument ".text ++ earlier.display))

/-- Options act in turn. -/
def actAll (o : Options) : List (Flag × Text) → Except Stop Options
  | [] => .ok o
  | (flag, value) :: uses => do
    let o ← o.act flag value
    o.actAll uses

/-- One more argument that nothing asked for. -/
def addExtra (o : Options) (t : Text) : Options :=
  { o with extra := o.extra ++ [t] }

end Options

/-- The options in one argument: those whose values are known, and an option whose value is the next
argument. -/
structure Uses where
  uses : List (Flag × Text)
  wanting : Option Flag
  deriving DecidableEq, Repr

namespace Uses

/-- One more option without a value in front. -/
def push (flag : Flag) (u : Uses) : Uses :=
  { u with uses := (flag, []) :: u.uses }

/-- An option with nothing joined to it. -/
def alone (flag : Flag) : Uses :=
  if flag.takesValue then ⟨[], some flag⟩ else ⟨[(flag, [])], none⟩

/-- An option with a text joined to it that is its value. Two dashes stand for an empty value. -/
def single (flag : Flag) (t : Text) : Uses :=
  ⟨[(flag, if t = "--".text then [] else t)], none⟩

/-- The message that an option takes no value. -/
def ignored (flag : Flag) (t : Text) : Stop :=
  misuseOf flag ("ignored explicit argument ".text ++ Text.quoted t)

/-- A short option with a text joined to it, which is its value or more short options. -/
def ofCluster (flag : Flag) : Text → Except Stop Uses
  | [] => if flag.takesValue then .ok (single flag []) else .error (ignored flag [])
  | c :: cs =>
    if flag.takesValue then .ok (single flag (c :: cs))
    else
      match Flag.ofSpelling? ['-', c] with
      | none => .error (ignored flag (c :: cs))
      | some next =>
        if cs.isEmpty then .ok (push flag (alone next)) else (ofCluster next cs).map (push flag)

/-- The options in one argument. -/
def ofOption (flag : Flag) (long : Bool) : Option Text → Except Stop Uses
  | none => .ok (alone flag)
  | some t =>
    if long then
      if flag.takesValue then .ok (single flag t) else .error (ignored flag t)
    else ofCluster flag t

end Uses

namespace Options

/-- A value, which is the source unless there is one already. -/
def addValue (o : Options) (t : Text) : Options :=
  match o.source with
  | none => { o with source := some t }
  | some _ => o.addExtra t

/-- What has been asked for so far, and what the remaining arguments ask for. Two dashes next to the
source belong to it, and elsewhere they are an extra. -/
def takeAll (o : Options) : List Argument → Except Stop Options
  | [] => .ok o
  | .value t :: rest =>
    match o.source, rest with
    | none, .divider :: rest => (o.addValue t).takeAll rest
    | _, rest => (o.addValue t).takeAll rest
  | .divider :: rest =>
    match o.source with
    | none => o.takeAll rest
    | some _ => (o.addExtra "--".text).takeAll rest
  | .unknown t :: rest => (o.addExtra t).takeAll rest
  | .option flag long joined :: rest => do
    let u ← Uses.ofOption flag long joined
    match u.wanting, rest with
    | none, rest => (← o.actAll u.uses).takeAll rest
    | some last, .value t :: rest => (← o.actAll (u.uses ++ [(last, t)])).takeAll rest
    | some last, _ => .error (misuseOf last "expected one argument".text)

/-- The options of a command with a source and with nothing that it does not ask for. -/
def complete (o : Options) : Except Stop Options :=
  if o.source.isNone then
    .error (.misuse "the following arguments are required: source".text)
  else if !o.extra.isEmpty then
    .error (.misuse ("unrecognized arguments: ".text ++ Text.joinWords o.extra))
  else .ok o

/-- The options that the arguments of a command ask for. -/
def ofArguments (argv : List Text) : Except Stop Options :=
  match Argument.sortAll argv with
  | .error message => .error (.misuse message)
  | .ok arguments => do
    let o ← Options.start.takeAll arguments
    o.complete

end Options

end Command

end BatchScript
