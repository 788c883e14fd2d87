import BatchScript.Statement.Reading
import BatchScript.Token.Scanner

/-!
# Scripts

A script is the list of statements of a token list, read one after another. The first error ends a
reading; what has been read before it is not part of the result, but the notes and the tokens behind
the error are.
-/

namespace BatchScript

namespace Script

/-- The statements of a list of tokens. -/
def read : List PlacedToken → Reading (List Statement)
  | [] => .done [] []
  | head :: ts =>
    let first := Statement.read head ts
    match first.result with
    | .error e => ⟨.error e, first.rest, first.log⟩
    | .ok statement =>
      have := (Statement.read_suffix head ts).length_le
      let later := read first.rest
      ⟨later.result.map (statement :: ·), later.rest, first.log ++ later.log⟩
  termination_by ts => ts.length
  decreasing_by simp only [List.length_cons]; omega

/-- The statements of a text. -/
def ofText (t : Text) : Except SyntaxError (List Statement) :=
  (read (Token.ofText t)).result

end Script

end BatchScript
