import BatchScript.Page.Basic
import BatchScript.Proofs.Token.Bare
import BatchScript.Proofs.Token.Mode

/-!
# Tokens that are written back

Each piece of a line is scanned as the token it was written for, and leaves the mode that this kind
of token leaves, whatever stands behind the piece, as long as that does not run into it. Nothing or
a space runs into no piece. A handle runs into no redirection.

> `bare_word`, `bare_handle`, `bare_keyword`, `bare_commandName`, `bare_label`, `bare_comment`,
> `bare_operator`: one piece each.
-/

namespace BatchScript

namespace Token

/-- The mode once an `@` has been read, if there is one. -/
def Mode.hide (m : Mode) (invisible : Bool) : Mode :=
  { m with invisible := m.invisible || invisible }

/-! ## Words -/

/-- A word, however it is written, where no statement may start. -/
theorem bare_of_read {m : Mode} {c : CodePoint} {cs : Text} (hm : m.atHead = false)
    (hr : m.afterRedirection = false) (hstart : StartsLexeme m c) (hop : isOperatorChar c = false)
    (hcs : c = '2' → cs.head? ≠ some (char '>')) (hvalue : (Word.read false (c :: cs)).value ≠ []) :
    bare m (c :: cs) = bareToken ⟨.word, (Word.read false (c :: cs)).value⟩ m ::
      bare m (Word.read false (c :: cs)).rest := by
  have hlexeme : Lexeme.read? m (c :: cs) =
      some (Lexeme.ofWord m (Word.read false (c :: cs))) := by
    have hmark : m.atHead = true → c ≠ ':' := fun h => absurd h (by simp [hm])
    rw [Lexeme.read?_eq_word hop hcs hmark, Lexeme.word?, if_neg]
    simpa using hvalue
  have hkind : (Lexeme.ofWord m (Word.read false (c :: cs))).token.kind = .word := by
    simp [Lexeme.ofWord, hm]
  rw [bare_token hstart hlexeme, Lexeme.ofWord_mode, hkind, Mode.behind_word hm hr]
  simp only [Lexeme.ofWord, hm]
  rfl

/-- A plain character is no character of an operator, no blank and no line break. -/
theorem not_isOperatorChar_of_isPlain {c : CodePoint} (hc : Word.isPlain c = true) :
    isOperatorChar c = false ∧ Text.isBlank c = false ∧ c ≠ '\n' := by
  simp only [Word.isPlain, Bool.and_eq_true, bne_iff_ne, Bool.not_eq_true'] at hc
  exact ⟨hc.1.2, hc.1.1.2, hc.1.1.1⟩

/-- A text that stands for itself is scanned as one word, which may be a keyword. -/
theorem bare_verbatim {m : Mode} {v tail : Text} (hne : v ≠ [])
    (hv : Word.isVerbatim false v = true) (htail : Text.BehindPiece tail)
    (hopen : Word.isOpen false v = true → tail = [])
    (hhead : m.atHead = true → v.head? ≠ some (char '@') ∧ v.head? ≠ some (char ':')) :
    bare m (v ++ tail) = bareToken (Lexeme.ofWord m ⟨v, v, tail⟩).token m ::
      bare (m.behind (Lexeme.ofWord m ⟨v, v, tail⟩).token.kind) tail := by
  obtain ⟨c, cs, rfl⟩ := List.exists_cons_of_ne_nil hne
  have hread := Word.read_append_of_isVerbatim hv htail hopen
  rw [Word.isVerbatim, Bool.and_eq_true] at hv
  obtain ⟨hop, hblank, hline⟩ := not_isOperatorChar_of_isPlain (c := c) hv.1
  -- a digit two starts no redirection: neither the word nor what follows it goes on with `>`
  have hsecond : c = '2' → (cs ++ tail).head? ≠ some (char '>') := by
    rintro rfl hgt
    cases cs with
    | nil => cases htail _ hgt
    | cons d ds =>
      cases Option.some.inj hgt
      have hd := hv.2
      rw [Word.isVerbatim, Bool.and_eq_true] at hd
      cases hd.1
  have hmark : m.atHead = true → c ≠ ':' := fun hm hc => (hhead hm).2 (by rw [hc]; rfl)
  have hstart : StartsLexeme m c := by
    refine ⟨hblank, hline, fun h => (hhead h.2).1 ?_⟩
    rw [h.1]
    rfl
  have hlexeme : Lexeme.read? m (c :: (cs ++ tail)) =
      some (Lexeme.ofWord m ⟨c :: cs, c :: cs, tail⟩) := by
    rw [List.cons_append] at hread
    rw [Lexeme.read?_eq_word hop hsecond hmark, Lexeme.word?, hread]
    rfl
  rw [← Lexeme.ofWord_mode]
  exact bare_token hstart hlexeme

/-- A word is scanned as itself where no statement may start, and elsewhere if it is no keyword. -/
theorem bare_word {m : Mode} {v tail : Text} (hne : v ≠ [])
    (hv : Word.isVerbatim false v = true) (htail : Text.BehindPiece tail)
    (hopen : Word.isOpen false v = true → tail = [])
    (hhead : m.atHead = true →
      Kind.keyword? v = none ∧ v.head? ≠ some (char '@') ∧ v.head? ≠ some (char ':')) :
    bare m (v ++ tail) = bareToken ⟨.word, v⟩ m :: bare (m.behind .word) tail := by
  have hkind : (if m.atHead then (Kind.keyword? v).getD .word else .word) = Kind.word := by
    split
    · next hm => rw [(hhead hm).1, Option.getD_none]
    · rfl
  rw [bare_verbatim hne hv htail hopen fun hm => (hhead hm).2]
  simp only [Lexeme.ofWord, hkind]

/-- A handle is scanned as one word behind its redirection. -/
theorem bare_handle {m : Mode} {d : CodePoint} {ds tail : Text} (hm : m.afterRedirection = true)
    (hhead : m.atHead = false) (hd : Text.isDigit d = true)
    (hv : Word.isVerbatim false (d :: ds) = true) (htail : Text.BehindPiece tail)
    (hopen : Word.isOpen false (d :: ds) = true → tail = []) :
    bare m (char '&' :: (d :: ds ++ tail)) =
      bareToken ⟨.word, char '&' :: d :: ds⟩ m :: bare (m.behind .word) tail := by
  have hread := Word.read_append_of_isVerbatim hv htail hopen
  rw [List.cons_append] at hread ⊢
  have hstart : StartsLexeme m '&' := by simp [StartsLexeme, Text.isBlank]
  have hlexeme : Lexeme.read? m (char '&' :: d :: (ds ++ tail)) =
      some ⟨⟨.word, char '&' :: d :: ds⟩, char '&' :: d :: ds, tail,
        { m with afterRedirection := false }⟩ := by
    simp only [Lexeme.read?, hm, hhead, Lexeme.handle?, hd, hread]
    rfl
  have hmode : { m with afterRedirection := false } = m.behind .word := by
    simp [Mode.behind, Kind.isChain, Kind.redirection?, hhead]
  rw [bare_token hstart hlexeme, hmode]

/-! ## Heads -/

/-- What the spelling of a keyword is like. -/
theorem spelling_keyword {kind : Kind} (hk : kind ∈ Kind.keywords) :
    kind.fixedText ≠ [] ∧ Word.isVerbatim false kind.fixedText = true ∧
      Word.isOpen false kind.fixedText = false ∧
      Kind.keyword? kind.fixedText = some kind ∧
      kind.fixedText.head? ≠ some (char '@') ∧ kind.fixedText.head? ≠ some (char ':') := by
  revert kind
  decide

/-- A keyword is scanned as itself where a statement may start. -/
theorem bare_keyword {m : Mode} {kind : Kind} {tail : Text} (hm : m.atHead = true)
    (hk : kind ∈ Kind.keywords) (htail : Text.BehindPiece tail) :
    bare m (kind.fixedText ++ tail) =
      bareToken ⟨kind, kind.fixedText⟩ m :: bare (m.behind kind) tail := by
  obtain ⟨hne, hv, hclosed, hkeyword, hat, hcolon⟩ := spelling_keyword hk
  rw [bare_verbatim hne hv htail (by rw [hclosed]; intro h; cases h) fun _ => ⟨hat, hcolon⟩]
  simp only [Lexeme.ofWord, hm, hkeyword]
  rfl

/-- A command is scanned as its keyword, hidden if an `@` stands before it. -/
theorem bare_commandName {m : Mode} {kind : Kind} {tail : Text} (hm : m.atHead = true)
    (hk : kind ∈ Kind.keywords) (htail : Text.BehindPiece tail) (invisible : Bool) :
    bare m (commandName kind.fixedText invisible ++ tail) =
      bareToken ⟨kind, kind.fixedText⟩ (m.hide invisible) ::
        bare ((m.hide invisible).behind kind) tail := by
  cases invisible with
  | false =>
    rw [Mode.hide, Bool.or_false]
    exact bare_keyword hm hk htail
  | true =>
    rw [Mode.hide, Bool.or_true]
    show bare m (char '@' :: (kind.fixedText ++ tail)) = _
    rw [bare_hide hm]
    exact bare_keyword (m := { m with invisible := true }) hm hk htail

/-- A label mark is scanned as itself, unless another colon follows it. -/
theorem bare_label {m : Mode} {rest : Text} (hm : m.atHead = true)
    (hr : m.afterRedirection = false) (hrest : rest.head? ≠ some (char ':')) :
    bare m (char ':' :: rest) = bareToken ⟨.label, [':']⟩ m :: bare (m.behind .label) rest := by
  have hstart : StartsLexeme m ':' := by simp [StartsLexeme, Text.isBlank]
  have hlexeme : Lexeme.read? m (char ':' :: rest) =
      some ⟨⟨.label, [':']⟩, [':'], rest, { m with atHead := false }⟩ := by
    have hmark : Lexeme.mark? m (char ':' :: rest) =
        some ⟨⟨.label, [':']⟩, [':'], rest, { m with atHead := false }⟩ := by
      cases rest with
      | nil => rfl
      | cons c cs =>
        have hc : c ≠ ':' := fun hc => hrest (by rw [hc]; rfl)
        simp [Lexeme.mark?, hc]
    rw [Lexeme.read?, hm, hmark]
    rfl
  have hmode : { m with atHead := false } = m.behind .label := by
    simp [Mode.behind, Kind.isChain, Kind.redirection?, hr]
  rw [bare_token hstart hlexeme, hmode]

/-- Two colons are a comment mark, whatever follows them. -/
theorem bare_comment {m : Mode} (rest : Text) (hm : m.atHead = true)
    (hr : m.afterRedirection = false) :
    bare m (char ':' :: char ':' :: rest) =
      bareToken ⟨.rem, [':', ':']⟩ m :: bare (m.behind .rem) rest := by
  have hstart : StartsLexeme m ':' := by simp [StartsLexeme, Text.isBlank]
  have hlexeme : Lexeme.read? m (char ':' :: char ':' :: rest) =
      some ⟨⟨.rem, [':', ':']⟩, [':', ':'], rest,
        { m with atHead := false, inComment := true }⟩ := by
    rw [Lexeme.read?, hm]
    rfl
  have hmode : { m with atHead := false, inComment := true } = m.behind .rem := by
    simp [Mode.behind, Kind.isChain, Kind.redirection?, hr]
  rw [bare_token hstart hlexeme, hmode]

/-! ## Operators -/

/-- An operator is scanned as itself, unless what follows makes it longer or makes it a handle. -/
theorem bare_operator {m : Mode} {kind : Kind} {tail : Text} (hk : kind ∈ Kind.operators)
    (htail : ∀ c, tail.head? = some c → kind.isExtendedBy c = false ∧ Text.isDigit c = false) :
    bare m (kind.fixedText ++ tail) =
      bareToken ⟨kind, kind.fixedText⟩ m :: bare (m.behind kind) tail := by
  have hop : operator? (kind.fixedText ++ tail) = some (kind, tail) :=
    operator?_eq_some_iff.2 ⟨hk, rfl, fun c hc => (htail c hc).1⟩
  have hfirst : ∃ c cs, kind.fixedText = c :: cs ∧ c ≠ ':' ∧ StartsLexeme m c ∧
      ∀ d, (cs ++ tail).head? = some d → c = '&' → Text.isDigit d = false := by
    have hcases : ∀ k ∈ Kind.operators, ∃ c cs, k.fixedText = c :: cs ∧ c ≠ ':' ∧ c ≠ '@' ∧
        c ≠ '\n' ∧ Text.isBlank c = false ∧ (c = '&' → cs = [] ∨ cs = [char '&']) := by
      simp [Kind.operators, Kind.fixedText, Kind.spelling?, Redirection.Kind.spelling,
        Text.isBlank]
    obtain ⟨c, cs, htext, hcolon, hat, hline, hblank, hamp⟩ := hcases kind hk
    refine ⟨c, cs, htext, hcolon, ⟨hblank, hline, fun h => hat h.1⟩, fun d hd hc => ?_⟩
    -- behind an ampersand stands another one or what follows the operator, and neither is a digit
    rcases hamp hc with rfl | rfl
    · exact (htail d hd).2
    · cases hd
      decide
  obtain ⟨c, cs, htext, hcolon, hstart, hdigit⟩ := hfirst
  have hmark : (if m.atHead then Lexeme.mark? m (kind.fixedText ++ tail) else none) = none := by
    rw [htext]
    split <;> simp [Lexeme.mark?, hcolon]
  have hhandle : (if m.afterRedirection then Lexeme.handle? m (kind.fixedText ++ tail)
      else none) = none := by
    rw [htext, List.cons_append, ite_eq_right_iff]
    intro _
    unfold Lexeme.handle?
    split
    · next d ds heq =>
      rw [List.cons.injEq] at heq
      rw [hdigit d (by rw [heq.2]; rfl) heq.1]
      rfl
    · rfl
  have hlexeme : Lexeme.read? m (kind.fixedText ++ tail) =
      some (Lexeme.ofOperator m kind tail) := by
    rw [Lexeme.read?, hmark, hhandle, Lexeme.operatorOrWord?, hop]
    rfl
  rw [htext, List.cons_append] at hlexeme
  have hscan := bare_token hstart hlexeme
  rw [Lexeme.ofOperator_mode m tail hk, ← List.cons_append, ← htext] at hscan
  exact hscan

/-- Behind an operator may stand nothing or a space. -/
theorem bare_operator_piece {m : Mode} {kind : Kind} {tail : Text} (hk : kind ∈ Kind.operators)
    (htail : Text.BehindPiece tail) :
    bare m (kind.fixedText ++ tail) =
      bareToken ⟨kind, kind.fixedText⟩ m :: bare (m.behind kind) tail := by
  apply bare_operator hk
  intro c hc
  rw [htail c hc]
  have hspace : ∀ k ∈ Kind.operators, k.isExtendedBy ' ' = false := by decide
  exact ⟨hspace kind hk, by decide⟩

end Token

end BatchScript
