import BatchScript.Page.Operand
import BatchScript.Statement.Basic

/-!
# Pages

A page is script text in the making: its finished lines, and the pieces of the line that is being
written. Statements are written in a normal form: keywords in lowercase, one space between pieces,
an `@` in front of each hidden command, redirections last. A line break finishes the line.
-/

namespace BatchScript

/-- Finished lines and the pieces of the current one. -/
structure Page where
  lines : List Text
  current : List Text
  deriving DecidableEq, Repr

namespace Page

/-- A page with nothing on it. -/
def blank : Page :=
  ⟨[], []⟩

/-- The page with more pieces on its current line; empty pieces leave no trace. -/
def write (p : Page) (pieces : List Text) : Page :=
  { p with current := p.current ++ pieces.filter (!·.isEmpty) }

/-- The page with its current line finished. -/
def endLine (p : Page) : Page :=
  ⟨p.lines ++ [Text.joinWords p.current], []⟩

/-- The text on the page. A finished line at its end leaves a line break at the end. -/
def text (p : Page) : Text :=
  Text.joinLines (p.lines ++ [Text.joinWords p.current])

end Page

/-- The name of a command, with an `@` in front when it is hidden. -/
def commandName (name : Text) (invisible : Bool) : Text :=
  if invisible then char '@' :: name else name

/-- The piece that a redirection makes, if there is one. -/
def Redirection.pieces : Option Redirection → List Text
  | none => []
  | some r => [r.text]

namespace Statement

/-- What a statement puts on its line. -/
def pieces : Statement → List Text
  | .echo words invisible redirection =>
    commandName "echo".text invisible :: words ++ Redirection.pieces redirection
  | .echoLine _ invisible redirection =>
    commandName "echo.".text invisible :: Redirection.pieces redirection
  | .exit words invisible => commandName "exit".text invisible :: words
  | .goto target invisible => [commandName "goto".text invisible, target]
  | .label name => [char ':' :: name]
  | .rem text => ["rem".text, text]
  | .set name value invisible =>
    [commandName "set".text invisible,
      Operand.write (Text.joinWords name) ++ char '=' :: Operand.write value]
  | .redirect r => [r.text]
  | .andIfSuccess => [['&', '&']]
  | .andAlways => [['&']]
  | .newLine => []
  | .command text => [text]
  | .unknown token => [token.spelling]

end Statement

/-- The page with one more statement on it. -/
def Page.add (p : Page) : Statement → Page
  | .newLine => p.endLine
  | s => p.write s.pieces

/-- The page with more statements on it. -/
def Page.addAll (p : Page) (statements : List Statement) : Page :=
  statements.foldl Page.add p

/-- The text of a script in normal form. -/
def Script.render (statements : List Statement) : Text :=
  (Page.blank.addAll statements).text

end BatchScript
