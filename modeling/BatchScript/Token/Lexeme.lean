import BatchScript.Token.Basic
import BatchScript.Token.Word
import BatchScript.Text.Digit

/-!
# Lexemes

What stands at the front of a line: a label or comment mark, a handle, an operator, or a word. The
answer depends on what came before on the line, which the mode holds.
-/

namespace BatchScript

namespace Token

/-- What the earlier tokens of a line decide about the next one. -/
structure Mode where
  /-- Whether a statement may start here. -/
  atHead : Bool
  /-- Whether an `@` has hidden the commands of the line. -/
  invisible : Bool
  /-- Whether a comment has begun on the line. -/
  inComment : Bool
  /-- Whether the last token is an operator that redirects output. -/
  afterRedirection : Bool
  deriving DecidableEq, Repr

/-- The mode at the start of every line. -/
def Mode.start : Mode :=
  ⟨true, false, false, false⟩

/-- A token as it is written, what follows it, and the mode behind it. -/
structure Lexeme where
  token : Token
  raw : Text
  rest : Text
  mode : Mode
  deriving DecidableEq, Repr

/-- The longest operator at the front of a text and what follows it. -/
def operator? : Text → Option (Kind × Text)
  | '2' :: '>' :: '>' :: cs => some (.redirect .stderrAppend, cs)
  | '2' :: '>' :: cs => some (.redirect .stderrOverwrite, cs)
  | '>' :: '>' :: cs => some (.redirect .append, cs)
  | '>' :: cs => some (.redirect .overwrite, cs)
  | '&' :: '&' :: cs => some (.andIfSuccess, cs)
  | '&' :: cs => some (.andAlways, cs)
  | '|' :: cs => some (.pipe, cs)
  | '<' :: cs => some (.input, cs)
  | _ => none

namespace Lexeme

/-- A label mark or a comment mark of two colons, where a statement may start. -/
def mark? (m : Mode) : Text → Option Lexeme
  | ':' :: ':' :: cs =>
    some ⟨⟨.rem, [':', ':']⟩, [':', ':'], cs, { m with atHead := false, inComment := true }⟩
  | ':' :: cs => some ⟨⟨.label, [':']⟩, [':'], cs, { m with atHead := false }⟩
  | _ => none

/-- An ampersand and a digit after a redirection: a handle, which is a bare word. -/
def handle? (m : Mode) : Text → Option Lexeme
  | '&' :: d :: cs =>
    if Text.isDigit d then
      let w := Word.read false (d :: cs)
      some ⟨⟨.word, char '&' :: w.value⟩, char '&' :: w.raw, w.rest,
        { m with afterRedirection := false }⟩
    else none
  | _ => none

/-- An operator. A statement may start behind one that chains, unless the line is a comment. -/
def ofOperator (m : Mode) (kind : Kind) (rest : Text) : Lexeme :=
  let raw := kind.spelling?.getD []
  ⟨⟨kind, raw⟩, raw, rest,
    { m with atHead := kind.isChain && !m.inComment,
             afterRedirection := kind.redirection?.isSome }⟩

/-- A word: a keyword where a statement may start, and a bare word elsewhere. The keyword `rem`
begins a comment. -/
def ofWord (m : Mode) (w : Word) : Lexeme :=
  let kind := if m.atHead then (Kind.keyword? w.value).getD .word else .word
  ⟨⟨kind, w.value⟩, w.raw, w.rest,
    { m with atHead := false, inComment := m.inComment || kind == .rem,
             afterRedirection := false }⟩

/-- The word at the front of a text; a caret that protects nothing is none. -/
def word? (m : Mode) (t : Text) : Option Lexeme :=
  if (Word.read false t).value.isEmpty then none else some (ofWord m (Word.read false t))

/-- The operator at the front of a text, or else the word. -/
def operatorOrWord? (m : Mode) (t : Text) : Option Lexeme :=
  match operator? t with
  | some (kind, rest) => some (ofOperator m kind rest)
  | none => word? m t

/-- The lexeme at the front of a text that starts with no blank and no line break. -/
def read? (m : Mode) (t : Text) : Option Lexeme :=
  ((if m.atHead then mark? m t else none).or
    (if m.afterRedirection then handle? m t else none)).or
      (operatorOrWord? m t)

end Lexeme

/-- An operator and what follows it make up the text. -/
theorem operator?_eq_some {t rest : Text} {kind : Kind} (h : operator? t = some (kind, rest)) :
    t = kind.spelling?.getD [] ++ rest ∧ kind.spelling?.getD [] ≠ [] := by
  unfold operator? at h
  split at h <;> cases h <;> exact ⟨rfl, by simp [Kind.spelling?, Redirection.Kind.spelling]⟩

/-- A character of an operator starts one. -/
theorem operator?_ne_none {c : CodePoint} (hc : isOperatorChar c = true) (cs : Text) :
    operator? (c :: cs) ≠ none := by
  simp only [isOperatorChar, Bool.or_eq_true, beq_iff_eq] at hc
  unfold operator?
  split <;> simp_all

namespace Lexeme

/-- A mark and what follows it make up the text. -/
theorem mark?_eq_some {m : Mode} {t : Text} {l : Lexeme} (h : mark? m t = some l) :
    t = l.raw ++ l.rest ∧ l.raw ≠ [] := by
  unfold mark? at h
  split at h <;> simp_all
  all_goals (subst h; simp)

/-- A handle and what follows it make up the text. -/
theorem handle?_eq_some {m : Mode} {t : Text} {l : Lexeme} (h : handle? m t = some l) :
    t = l.raw ++ l.rest ∧ l.raw ≠ [] := by
  unfold handle? at h
  split at h
  · split at h
    · cases h
      simp [Word.raw_append_rest]
    · simp at h
  · simp at h

/-- A word and what follows it make up the text. -/
theorem word?_eq_some {m : Mode} {t : Text} {l : Lexeme} (h : word? m t = some l) :
    t = l.raw ++ l.rest ∧ l.raw ≠ [] := by
  unfold word? at h
  split at h
  · simp at h
  · next hv =>
    cases h
    refine ⟨(Word.raw_append_rest false t).symm, fun hr => hv ?_⟩
    simp [Word.value_eq_nil_of_raw_eq_nil hr]

/-- A lexeme and what follows it make up the text, and a lexeme is not empty. -/
theorem read?_eq_some {m : Mode} {t : Text} {l : Lexeme} (h : read? m t = some l) :
    t = l.raw ++ l.rest ∧ l.raw ≠ [] := by
  simp only [read?, Option.or_eq_some_iff, Option.or_eq_none_iff] at h
  rcases h with (h | ⟨-, h⟩) | ⟨-, h⟩
  · split at h
    · exact mark?_eq_some h
    · simp at h
  · split at h
    · exact handle?_eq_some h
    · simp at h
  · unfold operatorOrWord? at h
    split at h
    · next heq =>
      cases h
      exact operator?_eq_some heq
    · exact word?_eq_some h

/-- Where there is no lexeme there is no operator, and the word is empty. -/
theorem read?_eq_none {m : Mode} {t : Text} (h : read? m t = none) :
    operator? t = none ∧ (Word.read false t).value = [] := by
  have hnone : operatorOrWord? m t = none := (Option.or_eq_none_iff.1 h).2
  unfold operatorOrWord? at hnone
  split at hnone
  · cases hnone
  · next hop => exact ⟨hop, by simpa [word?] using hnone⟩

/-- Where there is no lexeme, and neither a blank nor the end of a line, the empty word still takes
something. -/
theorem word_rest_lt {m : Mode} {c : CodePoint} {cs : Text} (hblank : ¬Text.isBlank c = true)
    (hline : c ≠ '\n') (h : read? m (c :: cs) = none) :
    (Word.read false (c :: cs)).rest.length < (c :: cs).length := by
  have hop : ¬isOperatorChar c = true := fun hc => operator?_ne_none hc cs (read?_eq_none h).1
  exact Word.rest_length_lt hline (by simp [hblank, hop])

end Lexeme

end Token

end BatchScript
