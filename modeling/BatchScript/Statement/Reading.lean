import BatchScript.Redirection.Clause
import BatchScript.Statement.Assignment
import BatchScript.Statement.Basic
import BatchScript.SyntaxError

/-!
# Reading statements from tokens

The first token of a statement, its head, decides what is read behind it: bare words, redirection
clauses, one word, or the rest of the line. A reading holds its result, the tokens behind it and the
notes made, also when it fails.

Main statement: a reading takes tokens from the front only (`Statement.read_suffix`), so a script is
read to its end.
-/

namespace BatchScript

/-- A result or an error, the tokens behind what has been read, and the notes. -/
structure Reading (α : Type) where
  result : Except SyntaxError α
  rest : List PlacedToken
  log : List Log.Entry

namespace Reading

/-- A reading that succeeds and notes nothing. -/
def done {α : Type} (value : α) (rest : List PlacedToken) : Reading α :=
  ⟨.ok value, rest, []⟩

end Reading

/-- The texts of the bare words at the front of a list of tokens. -/
def frontWords (ts : List PlacedToken) : List Text :=
  (ts.takeWhile PlacedToken.isWord).map (·.value)

/-- The tokens behind the bare words at the front. -/
def afterWords (ts : List PlacedToken) : List PlacedToken :=
  ts.dropWhile PlacedToken.isWord

/-- Whether a token ends a line. -/
def PlacedToken.endsLine (t : PlacedToken) : Bool :=
  t.kind == .newLine

namespace Statement

/-- The head by itself, noted as no statement. -/
def readUnknown (head : PlacedToken) (ts : List PlacedToken) : Reading Statement :=
  ⟨.ok (.unknown head), ts, [.unknownHead head]⟩

/-- Words to print and redirection clauses. -/
def readEcho (head : PlacedToken) (ts : List PlacedToken) : Reading Statement :=
  let clauses := Redirection.clauses (afterWords ts)
  ⟨.ok (.echo (frontWords ts) head.invisible clauses.redirection), clauses.rest, clauses.log⟩

/-- Redirection clauses of an empty line. -/
def readEchoLine (head : PlacedToken) (ts : List PlacedToken) : Reading Statement :=
  let clauses := Redirection.clauses ts
  ⟨.ok (.echoLine [emptyLineMark] head.invisible clauses.redirection), clauses.rest, clauses.log⟩

/-- The words of a command line, the head among them. -/
def readCommand (head : PlacedToken) (ts : List PlacedToken) : Reading Statement :=
  .done (.command (Text.joinWords (head.value :: frontWords ts))) (afterWords ts)

/-- The words behind an exit. -/
def readExit (head : PlacedToken) (ts : List PlacedToken) : Reading Statement :=
  .done (.exit (frontWords ts) head.invisible) (afterWords ts)

/-- The operands of an assignment, which fails without an equals sign. -/
def readSet (head : PlacedToken) (ts : List PlacedToken) : Reading Statement :=
  match Assignment.ofText? (Text.joinWords (frontWords ts)) with
  | some a => .done (.set a.name a.value head.invisible) (afterWords ts)
  | none =>
    ⟨.error (.invalidAssignment head.line head.column), afterWords ts,
      [.missingSeparator head (Text.joinWords (frontWords ts))]⟩

/-- A statement made of the bare word behind the head; without one the head is no statement. -/
def readOperand (make : Text → Statement) (head : PlacedToken) :
    List PlacedToken → Reading Statement
  | [] => readUnknown head []
  | t :: ts => if t.isWord then .done (make t.value) ts else readUnknown head (t :: ts)

/-- The label to jump to. -/
def readGoto (head : PlacedToken) (ts : List PlacedToken) : Reading Statement :=
  readOperand (.goto · head.invisible) head ts

/-- The name of a label. -/
def readLabel (head : PlacedToken) (ts : List PlacedToken) : Reading Statement :=
  readOperand .label head ts

/-- The target of a redirection without a command. -/
def readRedirect (kind : Redirection.Kind) (head : PlacedToken) (ts : List PlacedToken) :
    Reading Statement :=
  readOperand (fun target => .redirect ⟨kind, target⟩) head ts

/-- A comment: the tokens up to the end of the line, in their usual spelling. -/
def readRem (ts : List PlacedToken) : Reading Statement :=
  .done (.rem (Text.joinWords ((ts.takeWhile (!·.endsLine)).map (·.spelling))))
    (ts.dropWhile (!·.endsLine))

/-- The statement with the given head and the tokens behind it. -/
def read (head : PlacedToken) (ts : List PlacedToken) : Reading Statement :=
  match head.kind with
  | .word => readCommand head ts
  | .echo => readEcho head ts
  | .echoLine => readEchoLine head ts
  | .exit => readExit head ts
  | .goto => readGoto head ts
  | .label => readLabel head ts
  | .rem => readRem ts
  | .set => readSet head ts
  | .newLine => .done .newLine ts
  | .redirect kind => readRedirect kind head ts
  | .andIfSuccess => .done .andIfSuccess ts
  | .andAlways => .done .andAlways ts
  | .pipe | .input | .other _ => readUnknown head ts

/-- An operand takes tokens from the front only. -/
theorem readOperand_suffix (make : Text → Statement) (head : PlacedToken)
    (ts : List PlacedToken) : (readOperand make head ts).rest <:+ ts := by
  unfold readOperand
  split
  · exact List.suffix_rfl
  · split
    · exact List.suffix_cons _ _
    · exact List.suffix_rfl

/-- A statement takes tokens from the front only. -/
theorem read_suffix (head : PlacedToken) (ts : List PlacedToken) :
    (read head ts).rest <:+ ts := by
  unfold read
  split
  · exact List.dropWhile_suffix _
  · exact (Redirection.clausesAfter_suffix _ _).trans (List.dropWhile_suffix _)
  · exact Redirection.clausesAfter_suffix _ _
  · exact List.dropWhile_suffix _
  · exact readOperand_suffix _ _ _
  · exact readOperand_suffix _ _ _
  · exact List.dropWhile_suffix _
  · unfold readSet
    split <;> exact List.dropWhile_suffix _
  · exact List.suffix_rfl
  · exact readOperand_suffix _ _ _
  · exact List.suffix_rfl
  · exact List.suffix_rfl
  all_goals exact List.suffix_rfl

end Statement

end BatchScript
