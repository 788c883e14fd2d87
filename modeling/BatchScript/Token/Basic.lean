import BatchScript.Redirection.Basic

/-!
# Tokens

The words of a script, with what each one is: a keyword that starts a statement, an operator, a line
break, or a bare word. A token keeps the text it was read from; a placed token also knows its line
and column and whether its line hides commands from the console.

A token may also carry a name that the library does not know. Such a token comes from outside and
starts no statement.
-/

namespace BatchScript

namespace Token

/-- What a token is. -/
inductive Kind where
  | word
  | echo
  | echoLine
  | exit
  | goto
  | label
  | rem
  | set
  | newLine
  | redirect (kind : Redirection.Kind)
  | andIfSuccess
  | andAlways
  | pipe
  | input
  | other (name : Text)
  deriving DecidableEq, Repr

namespace Kind

/-- The name in listings and records. -/
def name : Kind → Text
  | .word => "IDENT".text
  | .echo => "ECHO".text
  | .echoLine => "ECHO_NEWLINE".text
  | .exit => "EXIT".text
  | .goto => "GOTO".text
  | .label => "LABEL".text
  | .rem => "REM".text
  | .set => "SET".text
  | .newLine => "NEWLINE".text
  | .redirect kind => "REDIRECT_".text ++ kind.capitalName
  | .andIfSuccess => "AND_IF_SUCCESS".text
  | .andAlways => "AND_ALWAYS".text
  | .pipe => "PIPE".text
  | .input => "REDIRECT_INPUT".text
  | .other name => name

/-- The kinds that the library knows. -/
def known : List Kind :=
  [.word, .echo, .echoLine, .exit, .goto, .label, .rem, .set, .newLine] ++
    Redirection.Kind.all.map .redirect ++ [.andIfSuccess, .andAlways, .pipe, .input]

/-- The kind with a given name. -/
def ofName (n : Text) : Kind :=
  (known.find? (·.name == n)).getD (.other n)

/-- How a script spells a token of this kind; a bare word or an unknown token has no fixed
spelling. -/
def spelling? : Kind → Option Text
  | .word => none
  | .echo => some "echo".text
  | .echoLine => some "echo.".text
  | .exit => some "exit".text
  | .goto => some "goto".text
  | .label => some [':']
  | .rem => some "rem".text
  | .set => some "set".text
  | .newLine => some ['\n']
  | .redirect kind => some kind.spelling
  | .andIfSuccess => some ['&', '&']
  | .andAlways => some ['&']
  | .pipe => some ['|']
  | .input => some ['<']
  | .other _ => none

/-- The redirection that a token of this kind announces. -/
def redirection? : Kind → Option Redirection.Kind
  | .redirect kind => some kind
  | _ => none

/-- Whether a statement may start after a token of this kind on the same line. -/
def isChain : Kind → Bool
  | .andIfSuccess | .andAlways | .pipe => true
  | _ => false

/-- The words that start a statement. -/
def keywords : List Kind :=
  [.echo, .echoLine, .exit, .goto, .rem, .set]

/-- The operators, an operator before those that begin it. -/
def operators : List Kind :=
  [.redirect .stderrAppend, .redirect .stderrOverwrite, .redirect .append, .redirect .overwrite,
   .andIfSuccess, .andAlways, .pipe, .input]

/-- The keyword that a word is, in letters of either case. A keyword has letters of ASCII only, and
no other character turns into one of them. -/
def keyword? (word : Text) : Option Kind :=
  keywords.find? (·.spelling? == some (Text.lowerAscii word))

end Kind

end Token

/-- A word of a script: what it is and the text it stands for. -/
structure Token where
  kind : Token.Kind
  value : Text
  deriving DecidableEq, Repr

namespace Token

/-- A token in its usual spelling, or with the name of its kind as its text where there is none. -/
def ofKind (kind : Kind) : Token :=
  ⟨kind, kind.spelling?.getD kind.name⟩

/-- How a script spells a token: a bare word by its own text, every other token in the usual
spelling of its kind, however it was written. -/
def spelling (t : Token) : Text :=
  t.kind.spelling?.getD t.value

/-- How listings show a token. -/
def listing (t : Token) : Text :=
  "Token(".text ++ t.kind.name ++ ", ".text ++ Text.quoted t.value ++ [char ')']

end Token

/-- A token at its place. The flag `invisible` says that an `@` on its line hides its command. -/
structure PlacedToken extends Token where
  invisible : Bool
  line : Int
  column : Int
  deriving DecidableEq, Repr

namespace PlacedToken

/-- Whether the token is a bare word. -/
def isWord (t : PlacedToken) : Bool :=
  t.kind == .word

/-- A line and a column as listings and messages show them. -/
def showPlace (line column : Int) : Text :=
  Text.ofInt line ++ char ':' :: Text.ofInt column

/-- The place of the token. -/
def place (t : PlacedToken) : Text :=
  showPlace t.line t.column

/-- How listings show a placed token. -/
def listing (t : PlacedToken) : Text :=
  "PositionedToken(".text ++ t.kind.name ++ ", ".text ++ Text.quoted t.value ++
    (if t.invisible then ", invisible".text else []) ++ ", ".text ++ t.place ++ [char ')']

end PlacedToken

end BatchScript
