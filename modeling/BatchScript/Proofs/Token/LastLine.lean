import Mathlib.Data.List.Induction
import BatchScript.Statement.Reading

/-!
# The line that tokens end in

What a token may be depends on the tokens before it, and of these only on the ones behind the last
line break: whether a comment has begun there, and whether the last of them lets a statement start.

> `commentOpen_append`: a line break ends a comment, and nothing else does.
-/

namespace BatchScript

namespace Token

/-- The tokens behind the last line break. -/
def lastLine (ts : List PlacedToken) : List PlacedToken :=
  (ts.reverse.takeWhile (!·.endsLine)).reverse

/-- One more token stands on the last line, unless it ends the line. -/
theorem lastLine_concat (ts : List PlacedToken) (t : PlacedToken) :
    lastLine (ts ++ [t]) = if t.endsLine then [] else lastLine ts ++ [t] := by
  cases h : t.endsLine <;> simp [lastLine, h]

/-- Whether a comment has begun on the line that tokens end in. -/
def commentOpen (ts : List PlacedToken) : Bool :=
  (lastLine ts).any (·.kind == .rem)

theorem commentOpen_nil : commentOpen [] = false := rfl

/-- A comment is open behind one more token if it was before or begins there, and the line goes
on. -/
theorem commentOpen_concat (ts : List PlacedToken) (t : PlacedToken) :
    commentOpen (ts ++ [t]) = (!t.endsLine && (commentOpen ts || t.kind == .rem)) := by
  rw [commentOpen, lastLine_concat]
  cases h : t.endsLine <;> simp [commentOpen]

/-- A comment is open behind two parts if it has begun in the second one, or in the first one and no
line ends in the second. -/
theorem commentOpen_append (xs ys : List PlacedToken) :
    commentOpen (xs ++ ys) =
      (commentOpen ys || (commentOpen xs && ys.all (!·.endsLine))) := by
  induction ys using List.reverseRecOn with
  | nil => simp [commentOpen_nil]
  | append_singleton ys y ih =>
    rw [← List.append_assoc, commentOpen_concat, commentOpen_concat, ih, List.all_append,
      List.all_cons, List.all_nil]
    cases y.endsLine with
    | false => simp only [Bool.not_false, Bool.true_and, Bool.and_true, Bool.or_right_comm]
    | true => simp only [Bool.not_true, Bool.false_and, Bool.and_false, Bool.or_false]

/-- A comment is open from where it begins up to the end of the line. -/
theorem commentOpen_of_rem {before line : List PlacedToken} {head : PlacedToken}
    (hk : head.kind = .rem) (hline : ∀ t ∈ line, t.endsLine = false) :
    commentOpen (before ++ head :: line) = true := by
  have hhead : commentOpen (before ++ [head]) = true := by
    simp [commentOpen_concat, PlacedToken.endsLine, hk]
  have hall : line.all (!·.endsLine) = true := by
    rw [List.all_eq_true]
    intro t ht
    rw [hline t ht]
    rfl
  rw [List.append_cons, commentOpen_append, hhead, hall, Bool.and_true, Bool.or_true]

/-- No comment is open behind tokens that begin none. -/
theorem commentOpen_eq_false {ts : List PlacedToken} (h : ∀ t ∈ ts, t.kind ≠ .rem) :
    commentOpen ts = false := by
  rw [commentOpen, List.any_eq_false]
  intro t ht hk
  have hmem : t ∈ ts :=
    List.mem_reverse.1 ((List.takeWhile_sublist _).subset (List.mem_reverse.1 ht))
  exact h t hmem (by simpa using hk)

/-- Whether a statement may start behind tokens: at the start of a line or behind an operator that
chains, and not in a comment. -/
structure MayStart (before : List PlacedToken) : Prop where
  behind : ∀ t, before.getLast? = some t → t.kind = .newLine ∨ t.kind.isChain = true
  noComment : commentOpen before = false

end Token

end BatchScript
