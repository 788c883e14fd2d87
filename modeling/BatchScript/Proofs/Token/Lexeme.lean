import BatchScript.Proofs.Token.Word
import BatchScript.Token.Lexeme

/-!
# Operators and lexemes, rule by rule

An operator is the longest one that the text starts with, which `operator?_eq_some_iff` says with no
mention of how it is found: the text is the operator and the rest, and the rest does not make it a
longer one. A line break makes no operator, mark, handle or word longer, and a blank makes none
longer where nothing is open, so a lexeme in front of them is the same as at the end of the text.
Where there is none, a caret protects nothing (`Lexeme.eq_caret_of_read?_eq_none`).
-/

namespace BatchScript

namespace Token

namespace Kind

/-- Whether an operator of this kind and a character behind it start a longer operator. -/
def isExtendedBy (kind : Kind) (c : CodePoint) : Bool :=
  match kind with
  | .redirect .overwrite | .redirect .stderrOverwrite => c == '>'
  | .andAlways => c == '&'
  | _ => false

/-- How a token of this kind is always written, if there is such a way. -/
def fixedText (kind : Kind) : Text :=
  kind.spelling?.getD []

end Kind

/-- The longest operator at the front of a text, said without a search. -/
theorem operator?_eq_some_iff {t rest : Text} {kind : Kind} :
    operator? t = some (kind, rest) ↔ kind ∈ Kind.operators ∧ t = kind.fixedText ++ rest ∧
      ∀ c, rest.head? = some c → kind.isExtendedBy c = false := by
  constructor
  · intro h
    refine ⟨?_, (operator?_eq_some h).1, ?_⟩
    · unfold operator? at h
      split at h <;> cases h <;> decide
    · intro c hc
      cases rest with
      | nil => cases hc
      | cons d ds =>
        cases hc
        unfold operator? at h
        split at h <;> cases h <;> simp_all [Kind.isExtendedBy]
  · rintro ⟨hkind, rfl, hrest⟩
    have hcases : kind = .redirect .stderrAppend ∨ kind = .redirect .stderrOverwrite ∨
        kind = .redirect .append ∨ kind = .redirect .overwrite ∨ kind = .andIfSuccess ∨
        kind = .andAlways ∨ kind = .pipe ∨ kind = .input := by
      simpa [Kind.operators] using hkind
    -- only the three operators that a longer one starts with look at the rest
    rcases hcases with rfl | rfl | rfl | rfl | rfl | rfl | rfl | rfl
    · rfl
    · cases rest <;>
        simp_all [operator?, Kind.fixedText, Kind.spelling?, Redirection.Kind.spelling,
          Kind.isExtendedBy]
    · rfl
    · cases rest <;>
        simp_all [operator?, Kind.fixedText, Kind.spelling?, Redirection.Kind.spelling,
          Kind.isExtendedBy]
    · rfl
    · cases rest <;> simp_all [operator?, Kind.fixedText, Kind.spelling?, Kind.isExtendedBy]
    · rfl
    · rfl

/-- An operator is written with operator characters and the digit two. -/
theorem mem_fixedText {kind : Kind} (hk : kind ∈ Kind.operators) {c : CodePoint}
    (hc : c ∈ kind.fixedText) : isOperatorChar c = true ∨ c = '2' := by
  have hall : ∀ k ∈ Kind.operators,
      k.fixedText.all (fun d => isOperatorChar d || d == '2') = true := by decide
  have hchar := List.all_eq_true.1 (hall kind hk) c hc
  rwa [Bool.or_eq_true, beq_iff_eq] at hchar

/-- Only a character of an operator makes one longer. -/
theorem isExtendedBy_eq_false {c : CodePoint} (hc : isOperatorChar c = false) (kind : Kind) :
    kind.isExtendedBy c = false := by
  cases h : kind.isExtendedBy c with
  | false => rfl
  | true =>
    unfold Kind.isExtendedBy at h
    split at h
    · rw [beq_iff_eq.1 h] at hc
      cases hc
    · rw [beq_iff_eq.1 h] at hc
      cases hc
    · rw [beq_iff_eq.1 h] at hc
      cases hc
    · cases h

/-- No operator starts with another character than an operator character, or a digit two before a
redirection. -/
theorem operator?_eq_none {c : CodePoint} {cs : Text} (hc : isOperatorChar c = false)
    (hcs : c = '2' → cs.head? ≠ some (char '>')) : operator? (c :: cs) = none := by
  cases h : operator? (c :: cs) with
  | none => rfl
  | some found =>
    obtain ⟨kind, rest⟩ := found
    obtain ⟨hkind, happ, -⟩ := operator?_eq_some_iff.1 h
    have hstart : ∀ k ∈ Kind.operators, (∃ d ∈ k.fixedText.head?, isOperatorChar d = true) ∨
        ∃ more, k.fixedText = char '2' :: char '>' :: more := by
      simp [Kind.operators, Kind.fixedText, Kind.spelling?, Redirection.Kind.spelling,
        isOperatorChar]
    -- both sorts of spelling are at odds with the first two characters
    rcases hstart kind hkind with ⟨d, hd, hop⟩ | ⟨more, htext⟩
    · have hcd : c = d := by
        have hfirst := congrArg List.head? happ
        rw [List.head?_append, Option.mem_def.1 hd] at hfirst
        exact Option.some.inj hfirst
      rw [hcd, hop] at hc
      cases hc
    · rw [htext, List.cons_append, List.cons_append, List.cons.injEq] at happ
      exact absurd (by rw [happ.2]; rfl) (hcs happ.1)

/-- Where no mark, handle or operator stands there is a word. -/
theorem Lexeme.read?_eq_word {m : Mode} {c : CodePoint} {cs : Text} (hop : isOperatorChar c = false)
    (hcs : c = '2' → cs.head? ≠ some (char '>')) (hmark : m.atHead = true → c ≠ ':') :
    read? m (c :: cs) = word? m (c :: cs) := by
  have hnone : (if m.atHead then mark? m (c :: cs) else none) = none := by
    split
    · next hm => simp [mark?, hmark hm]
    · rfl
  have hhandle : handle? m (c :: cs) = none := by
    have hc : c ≠ '&' := by
      rintro rfl
      cases hop
    simp [handle?, hc]
  rw [read?, hnone, hhandle, operatorOrWord?, operator?_eq_none hop hcs]
  cases m.afterRedirection <;> rfl

/-- A lexeme is a mark, a handle, an operator or a word. A mark goes before the others. -/
theorem Lexeme.read?_cases {m : Mode} {t : Text} {l : Lexeme} (h : read? m t = some l) :
    (m.atHead = true ∧ mark? m t = some l) ∨
      ((m.atHead = true → mark? m t = none) ∧
        ((m.afterRedirection = true ∧ handle? m t = some l) ∨
          (∃ kind rest, operator? t = some (kind, rest) ∧ l = ofOperator m kind rest) ∨
          ((Word.read false t).value ≠ [] ∧ l = ofWord m (Word.read false t)))) := by
  simp only [read?, Option.or_eq_some_iff, Option.or_eq_none_iff] at h
  have hmark : (if m.atHead then mark? m t else none) = none → m.atHead = true →
      mark? m t = none := by
    intro hnone hm
    rwa [if_pos hm] at hnone
  -- in the order in which they are tried
  rcases h with (h | ⟨hnone, h⟩) | ⟨⟨hnone, -⟩, h⟩
  · split at h
    · next hm => exact Or.inl ⟨hm, h⟩
    · cases h
  · split at h
    · next hr => exact Or.inr ⟨hmark hnone, Or.inl ⟨hr, h⟩⟩
    · cases h
  · refine Or.inr ⟨hmark hnone, Or.inr ?_⟩
    unfold operatorOrWord? at h
    split at h
    · next kind rest hop => exact Or.inl ⟨kind, rest, hop, (Option.some.inj h).symm⟩
    · unfold word? at h
      split at h
      · cases h
      · next hv => exact Or.inr ⟨by simpa using hv, (Option.some.inj h).symm⟩

/-- Where there is no lexeme, and neither a blank nor the end of a line, there is a caret that
protects nothing. -/
theorem Lexeme.eq_caret_of_read?_eq_none {m : Mode} {c : CodePoint} {cs : Text}
    (hblank : Text.isBlank c = false) (hline : c ≠ '\n') (h : read? m (c :: cs) = none) :
    c = '^' ∧ (cs.head? = none ∨ cs.head? = some (char '\n')) := by
  obtain ⟨hop, hempty⟩ := read?_eq_none h
  rcases Word.char_cases c with rfl | hend | rfl | hplain
  · exact absurd rfl hline
  · -- a character that ends words and is no blank starts an operator
    rw [Word.isEnd, hblank, Bool.false_or] at hend
    exact absurd hop (operator?_ne_none hend cs)
  · cases cs with
    | nil => exact ⟨rfl, Or.inl rfl⟩
    | cons d ds =>
      by_cases hd : d = '\n'
      · subst hd
        exact ⟨rfl, Or.inr rfl⟩
      · rw [Word.read_caret hd] at hempty
        cases hempty
  · rw [Word.read_plain hplain] at hempty
    cases hempty

/-- The empty word there is the caret. -/
theorem Lexeme.word_of_read?_eq_none {m : Mode} {c : CodePoint} {cs : Text}
    (hblank : Text.isBlank c = false) (hline : c ≠ '\n') (h : read? m (c :: cs) = none) :
    Word.read false (c :: cs) = ⟨[c], [], cs⟩ := by
  obtain ⟨rfl, hcs | hcs⟩ := eq_caret_of_read?_eq_none hblank hline h
  · rw [List.head?_eq_none_iff.1 hcs, Word.read_caret_nil]
  · obtain ⟨ds, rfl⟩ := List.head?_eq_some_iff.1 hcs
    exact Word.read_caret_newLine ds

/-! ## Before a blank and before a line break -/

/-- A blank is of no operator, handle or mark. -/
theorem other_of_isBlank {d : CodePoint} (hd : Text.isBlank d = true) :
    isOperatorChar d = false ∧ Text.isDigit d = false ∧ d ≠ ':' := by
  simp only [Text.isBlank, Bool.or_eq_true, beq_iff_eq] at hd
  rcases hd with (rfl | rfl) | rfl <;> decide

/-- A character of no operator makes no operator and makes none longer. -/
theorem operator?_append {d : CodePoint} (hd : isOperatorChar d = false) (htwo : d ≠ '2')
    (t u : Text) : operator? (t ++ d :: u) =
      (operator? t).map fun (kind, rest) => (kind, rest ++ d :: u) := by
  cases h : operator? t with
  | some found =>
    obtain ⟨kind, rest⟩ := found
    obtain ⟨hkind, rfl, hrest⟩ := operator?_eq_some_iff.1 h
    refine operator?_eq_some_iff.2 ⟨hkind, by rw [List.append_assoc], ?_⟩
    cases rest with
    | cons e es => exact hrest
    | nil =>
      rintro c hc
      cases hc
      exact isExtendedBy_eq_false hd kind
  | none =>
    cases h' : operator? (t ++ d :: u) with
    | none => rfl
    | some found =>
      obtain ⟨kind, rest'⟩ := found
      obtain ⟨hkind, happ, hrest⟩ := operator?_eq_some_iff.1 h'
      -- the operator does not hold the character, so it lies in front of it
      have hmem : d ∉ kind.fixedText := by
        intro hmem
        rcases mem_fixedText hkind hmem with hc | hc
        · rw [hd] at hc
          cases hc
        · exact htwo hc
      obtain ⟨rest, rfl, rfl⟩ : ∃ rest, t = kind.fixedText ++ rest ∧ rest' = rest ++ d :: u := by
        rcases List.append_eq_append_iff.1 happ with ⟨back, hk, hback⟩ | ⟨rest, ht, hr⟩
        · cases back with
          | nil => exact ⟨[], by simpa using hk.symm, hback.symm⟩
          | cons c cs =>
            cases hback
            exact absurd (hk ▸ List.mem_append_right t List.mem_cons_self) hmem
        · exact ⟨rest, ht, hr⟩
      rw [operator?_eq_some_iff.2 ⟨hkind, rfl, ?_⟩] at h
      · cases h
      · intro c hc
        exact hrest c (by rw [List.head?_append, hc]; rfl)

namespace Lexeme

/-- The lexeme with more text behind what follows it. -/
def followedBy (l : Lexeme) (t : Text) : Lexeme :=
  { l with rest := l.rest ++ t }

/-- A mark is read in front of more text, if no colon follows it. -/
theorem mark?_append {d : CodePoint} (hd : d ≠ ':') (m : Mode) (t u : Text) :
    mark? m (t ++ d :: u) = (mark? m t).map (·.followedBy (d :: u)) := by
  rcases t with _ | ⟨c, _ | ⟨e, es⟩⟩
  · simp [mark?, hd]
  · by_cases hc : c = ':' <;> simp [mark?, hc, hd, followedBy]
  · by_cases hc : c = ':' <;> by_cases he : e = ':' <;> simp [mark?, hc, he, followedBy]

/-- A handle is read in front of more text, if the character there ends its word. -/
theorem handle?_append {d : CodePoint} (hand : d ≠ '&') (hdigit : Text.isDigit d = false) (m : Mode)
    {t : Text} (ht : Word.Ends false t d) (u : Text) :
    handle? m (t ++ d :: u) = (handle? m t).map (·.followedBy (d :: u)) := by
  rcases t with _ | ⟨c, _ | ⟨e, es⟩⟩
  · cases u <;> simp [handle?, hand]
  · by_cases hc : c = '&'
    · subst hc
      simp [handle?, hdigit]
    · simp [handle?, hc]
  · by_cases hc : c = '&'
    · subst hc
      have hends : Word.Ends false (e :: es) d := ht.of_closed (Word.isClosed_own (by decide) _)
      have hword := Word.read_append u false (e :: es) hends
      rw [List.cons_append] at hword
      cases he : Text.isDigit e with
      | false => simp [handle?, he]
      | true => simp [handle?, he, hword, followedBy, Word.followedBy]
    · simp [handle?, hc]

/-- A lexeme before a character that ends its word is read as at the end of the text. -/
theorem read?_append (m : Mode) {t : Text} {d : CodePoint} (h : Word.Ends false t d) (u : Text) :
    read? m (t ++ d :: u) = (read? m t).map (·.followedBy (d :: u)) := by
  obtain ⟨hop, hdigit, hmark⟩ : isOperatorChar d = false ∧ Text.isDigit d = false ∧ d ≠ ':' := by
    rcases h with rfl | ⟨hblank, -⟩
    · decide
    · exact other_of_isBlank hblank
  have htwo : d ≠ '2' := by
    rintro rfl
    cases hdigit
  have hand : d ≠ '&' := by
    rintro rfl
    cases hop
  -- an operator or a word is not made longer, and neither are the marks and handles
  have hrest : operatorOrWord? m (t ++ d :: u) =
      (operatorOrWord? m t).map (·.followedBy (d :: u)) := by
    rw [operatorOrWord?, operatorOrWord?, operator?_append hop htwo]
    cases operator? t with
    | some found => rfl
    | none =>
      rw [Option.map_none]
      simp only [word?, Word.read_append u false t h]
      cases hv : (Word.read false t).value.isEmpty
      · simp [Word.followedBy, hv]
        rfl
      · simp [Word.followedBy, hv]
  rw [read?, read?, hrest, mark?_append hmark, handle?_append hand hdigit m h, Option.map_or,
    Option.map_or]
  cases m.atHead <;> cases m.afterRedirection <;> rfl

theorem mark?_isClosed {m : Mode} {t : Text} {l : Lexeme} (h : mark? m t = some l) :
    Word.isClosed false l.raw = true := by
  unfold mark? at h
  split at h <;> cases h <;> rfl

theorem ofOperator_isClosed (m : Mode) {kind : Kind} (rest : Text) (hk : kind ∈ Kind.operators) :
    Word.isClosed false (ofOperator m kind rest).raw = true := by
  have hall : ∀ k ∈ Kind.operators, Word.isClosed false k.fixedText = true := by decide
  exact hall kind hk

/-- A lexeme that something on its line follows is written with a closed text. -/
theorem isClosed_raw {m : Mode} {t : Text} {l : Lexeme} {c : CodePoint} {cs : Text}
    (h : read? m t = some l) (hrest : l.rest = c :: cs) (hc : c ≠ '\n') :
    Word.isClosed false l.raw = true := by
  rcases read?_cases h with ⟨-, h⟩ | ⟨-, ⟨-, h⟩ | ⟨kind, rest, hop, rfl⟩ | ⟨-, rfl⟩⟩
  · exact mark?_isClosed h
  · unfold handle? at h
    split at h
    · split at h
      · cases h
        rw [Word.isClosed_own (by decide)]
        exact Word.isClosed_raw hc hrest
      · cases h
    · cases h
  · exact ofOperator_isClosed m rest (operator?_eq_some_iff.1 hop).1
  · exact Word.isClosed_raw hc hrest

/-- A lexeme before a line break is read as at the end of the text. -/
theorem read?_append_newLine (m : Mode) (t u : Text) :
    read? m (t ++ char '\n' :: u) = (read? m t).map (·.followedBy (char '\n' :: u)) :=
  read?_append m (Or.inl rfl) u

end Lexeme

/-! ## Within a line -/

/-- A token that is no line break and holds none. -/
def WithinLine (t : Token) : Prop :=
  t.kind ≠ .newLine ∧ char '\n' ∉ t.value

namespace Lexeme

theorem mark?_withinLine {m : Mode} {t : Text} {l : Lexeme} (h : mark? m t = some l) :
    l.token.WithinLine := by
  unfold mark? at h
  split at h
  · cases h
    exact ⟨by simp, by simp⟩
  · cases h
    exact ⟨by simp, by simp⟩
  · cases h

theorem handle?_withinLine {m : Mode} {t : Text} {l : Lexeme} (h : handle? m t = some l) :
    l.token.WithinLine := by
  unfold handle? at h
  split at h
  · next d cs =>
    split at h
    · cases h
      exact ⟨by simp, by simpa using Word.not_mem_value false (d :: cs)⟩
    · cases h
  · cases h

theorem ofOperator_withinLine (m : Mode) {kind : Kind} (rest : Text)
    (hkind : kind ∈ Kind.operators) : (ofOperator m kind rest).token.WithinLine := by
  refine ⟨?_, fun hmem => ?_⟩
  · rintro rfl
    revert hkind
    decide
  · rcases mem_fixedText hkind hmem with hc | hc <;> simp [isOperatorChar] at hc

/-- A word is a bare word, or a keyword where a statement may start. -/
theorem ofWord_kind (m : Mode) (w : Word) : (ofWord m w).token.kind = .word ∨
    (m.atHead = true ∧ Kind.keyword? w.value = some (ofWord m w).token.kind) := by
  cases hm : m.atHead with
  | false =>
    simp only [ofWord, hm]
    exact Or.inl rfl
  | true =>
    simp only [ofWord, hm, if_true]
    cases hk : Kind.keyword? w.value with
    | none => exact Or.inl rfl
    | some kind => exact Or.inr ⟨trivial, rfl⟩

theorem ofWord_withinLine (m : Mode) (t : Text) :
    (ofWord m (Word.read false t)).token.WithinLine := by
  refine ⟨fun hline => ?_, Word.not_mem_value false t⟩
  have hnone : Kind.newLine ∉ Kind.keywords := by decide
  rcases ofWord_kind m (Word.read false t) with hk | ⟨-, hk⟩
  · rw [hk] at hline
    cases hline
  · rw [hline] at hk
    exact hnone (List.mem_of_find?_eq_some hk)

/-- No lexeme is a line break or holds one. -/
theorem read?_withinLine {m : Mode} {t : Text} {l : Lexeme} (h : read? m t = some l) :
    l.token.WithinLine := by
  rcases read?_cases h with ⟨-, h⟩ | ⟨-, ⟨-, h⟩ | ⟨kind, rest, hop, rfl⟩ | ⟨-, rfl⟩⟩
  · exact mark?_withinLine h
  · exact handle?_withinLine h
  · exact ofOperator_withinLine m rest (operator?_eq_some_iff.1 hop).1
  · exact ofWord_withinLine m t

end Lexeme

end Token

end BatchScript
