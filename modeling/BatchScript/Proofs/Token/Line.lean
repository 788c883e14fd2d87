import BatchScript.Proofs.Token.Bare
import BatchScript.Proofs.Token.Mode

/-!
# The tokens of a line

`Line m ts` says of the tokens of a line, read from the mode `m` on, what a scanner guarantees where
all carets stand inside quotes: a word stands for itself, a handle follows a redirection, keywords
and labels stand only where a statement may start, and a word that leaves a quote open is the last
of its line. It says nothing of how the tokens were written, so it also holds of the same tokens
read from a mode that hides less.

> `Scans.line`, `line_bare`: the tokens of a line with all carets inside quotes are of this sort.
-/

namespace BatchScript

namespace Token

/-- What a token can be in a mode. -/
inductive Fits : Mode → Token → Prop
  | word {m : Mode} {v : Text} : v ≠ [] → Word.isVerbatim false v = true →
      (m.atHead = true →
        Kind.keyword? v = none ∧ v.head? ≠ some (char '@') ∧ v.head? ≠ some (char ':')) →
      Fits m ⟨.word, v⟩
  | handle {m : Mode} {d : CodePoint} {ds : Text} : m.afterRedirection = true → m.atHead = false →
      Text.isDigit d = true → Word.isVerbatim false (d :: ds) = true →
      Fits m ⟨.word, char '&' :: d :: ds⟩
  | keyword {m : Mode} {kind : Kind} {v : Text} : m.atHead = true → kind ∈ Kind.keywords →
      Fits m ⟨kind, v⟩
  | label {m : Mode} {v : Text} : m.atHead = true → Fits m ⟨.label, v⟩
  | operator {m : Mode} {kind : Kind} {v : Text} : kind ∈ Kind.operators → Fits m ⟨kind, v⟩

/-- A bare word stands for itself, or it is a handle behind a redirection. -/
theorem Fits.isVerbatim_or_handle {m : Mode} {t : Token} (h : Fits m t) (hk : t.kind = .word) :
    Word.isVerbatim false t.value = true ∨
      (m.afterRedirection = true ∧
        ∃ w, t.value = char '&' :: w ∧ Word.isVerbatim false w = true) := by
  have hkeyword : Kind.word ∉ Kind.keywords := by decide
  have hoperator : Kind.word ∉ Kind.operators := by decide
  cases h with
  | word _ hv => exact Or.inl hv
  | @handle d ds hm _ _ hv => exact Or.inr ⟨hm, d :: ds, rfl, hv⟩
  | keyword _ hk' => exact absurd (hk ▸ hk') hkeyword
  | label => cases hk
  | operator hk' => exact absurd (hk ▸ hk') hoperator

/-- The mode behind a token, which shows whether an `@` stood before it. -/
def Mode.behindToken (m : Mode) (t : PlacedToken) : Mode :=
  { m with invisible := t.invisible }.behind t.kind

/-- The tokens of a line from a mode on. -/
inductive Line : Mode → List PlacedToken → Prop
  | nil {m : Mode} : Line m []
  | cons {m : Mode} {t : PlacedToken} {ts : List PlacedToken} :
      (m.invisible = true → t.invisible = true) → Fits m t.toToken →
      (t.isWord = true → Word.isOpen false t.value = true → ts = []) →
      Line (m.behindToken t) ts → Line m (t :: ts)

/-! ## Hiding less -/

/-- Modes that agree, but for what an `@` has hidden in the second one only. -/
structure Mode.HidesLess (m' m : Mode) : Prop where
  atHead : m'.atHead = m.atHead
  inComment : m'.inComment = m.inComment
  afterRedirection : m'.afterRedirection = m.afterRedirection
  invisible : m'.invisible = true → m.invisible = true

/-- What a token can be in a mode it can be where less is hidden. -/
theorem Fits.of_hidesLess {m m' : Mode} {t : Token} (h : Fits m t) (hm : m'.HidesLess m) :
    Fits m' t := by
  cases h with
  | word hne hv hhead => exact .word hne hv fun h => hhead (hm.atHead ▸ h)
  | handle hr hhead hd hv =>
    exact .handle (hm.afterRedirection.trans hr) (hm.atHead.trans hhead) hd hv
  | keyword hhead hk => exact .keyword (hm.atHead.trans hhead) hk
  | label hhead => exact .label (hm.atHead.trans hhead)
  | operator hk => exact .operator hk

/-- What hides less reads the same line. -/
theorem Line.of_hidesLess {m m' : Mode} {ts : List PlacedToken} (h : Line m ts)
    (hm : m'.HidesLess m) : Line m' ts := by
  cases h with
  | nil => exact .nil
  | @cons _ t ts hflag hfits hopen hrest =>
    have hbehind : m'.behindToken t = m.behindToken t := by
      simp [Mode.behindToken, Mode.behind, hm.inComment]
    exact .cons (fun h => hflag (hm.invisible h)) (hfits.of_hidesLess hm) hopen (hbehind ▸ hrest)

/-! ## From the scanner -/

namespace Word

theorem CaretsQuoted.of_cons_of_ne {c : CodePoint} {cs : Text} (h : CaretsQuoted false (c :: cs))
    (hc : c ≠ '"') : CaretsQuoted false cs := by
  have hquote : (c == '"') = false := by simpa using hc
  have hcs := h.of_cons
  rwa [hquote] at hcs

theorem caretsQuoted_nil (quoted : Bool) : CaretsQuoted quoted [] := by
  intro before after h
  cases before <;> cases h

end Word

theorem isPlain_of_isDigit {d : CodePoint} (hd : Text.isDigit d = true) :
    Word.isPlain d = true := by
  rcases Word.char_cases d with rfl | hend | rfl | hplain
  · revert hd
    decide
  · simp only [Word.isEnd, Text.isBlank, isOperatorChar, Bool.or_eq_true, beq_iff_eq] at hend
    rcases hend with ((rfl | rfl) | rfl) | ((rfl | rfl) | rfl) | rfl <;> revert hd <;> decide
  · revert hd
    decide
  · exact hplain

namespace Lexeme

/-- What the front of a line with all carets inside quotes yields. -/
structure OfLine (m : Mode) (l : Lexeme) : Prop where
  fits : Fits m l.token
  closed : l.token.kind = .word → Word.isOpen false l.token.value = true → l.rest = []
  rest : Word.CaretsQuoted false l.rest

/-- A mark leaves a line with its carets inside quotes. -/
theorem mark?_ofLine {m : Mode} {t : Text} {l : Lexeme} (hm : m.atHead = true)
    (ht : Word.CaretsQuoted false t) (h : mark? m t = some l) : OfLine m l := by
  unfold mark? at h
  split at h
  · cases h
    exact ⟨.keyword hm (by decide), fun hk => (by cases hk),
      ht.of_append (t := [char ':', char ':'])⟩
  · cases h
    exact ⟨.label hm, fun hk => (by cases hk), ht.of_append (t := [char ':'])⟩
  · cases h

/-- A word of a line with all carets inside quotes stands for itself. -/
theorem word_ofLine {t : Text} (hline : char '\n' ∉ t) (ht : Word.CaretsQuoted false t) :
    t = (Word.read false t).value ++ (Word.read false t).rest ∧
      Word.isVerbatim false (Word.read false t).value = true ∧
      (Word.isOpen false (Word.read false t).value = true → (Word.read false t).rest = []) ∧
      Word.CaretsQuoted false (Word.read false t).rest := by
  obtain ⟨hraw, hverbatim, hopen⟩ := Word.read_of_caretsQuoted ht hline
  have happ := Word.raw_append_rest false t
  rw [hraw] at happ
  refine ⟨happ.symm, hverbatim, hopen, ?_⟩
  rw [← happ] at ht
  have hrest := ht.of_append
  cases hquote : Word.isOpen false (Word.read false t).value with
  | false => rwa [hquote] at hrest
  | true =>
    rw [hopen hquote]
    exact Word.caretsQuoted_nil false

theorem handle?_ofLine {m : Mode} {t : Text} {l : Lexeme} (hm : m.Sound)
    (hr : m.afterRedirection = true) (hline : char '\n' ∉ t) (ht : Word.CaretsQuoted false t)
    (h : handle? m t = some l) : OfLine m l := by
  have hhead := hm.atHead_eq_false hr
  unfold handle? at h
  split at h
  · next d cs =>
    split at h
    · next hd =>
      cases h
      rw [List.mem_cons, not_or] at hline
      -- the digit belongs to the word, which goes on behind it
      have hvalue : (Word.read false (d :: cs)).value =
          d :: (Word.read (d == '"') cs).value := by
        rw [Word.read_plain (isPlain_of_isDigit hd)]
        rfl
      obtain ⟨-, hverbatim, hopen, hrest⟩ :=
        word_ofLine hline.2 (ht.of_cons_of_ne (by decide))
      refine ⟨?_, fun _ => hopen, hrest⟩
      rw [hvalue] at hverbatim ⊢
      exact .handle hr hhead hd hverbatim
    · cases h
  · cases h

theorem ofOperator_ofLine {m : Mode} {t rest : Text} {kind : Kind}
    (ht : Word.CaretsQuoted false t) (h : operator? t = some (kind, rest)) :
    OfLine m (ofOperator m kind rest) := by
  obtain ⟨hkind, rfl, -⟩ := operator?_eq_some_iff.1 h
  have hfacts : ∀ k ∈ Kind.operators, k ≠ .word ∧ Word.isOpen false k.fixedText = false := by
    decide
  obtain ⟨hword, hclosed⟩ := hfacts kind hkind
  have hrest := ht.of_append
  rw [hclosed] at hrest
  exact ⟨.operator hkind, fun hk => absurd hk hword, hrest⟩

/-- A word leaves a line with its carets inside quotes. -/
theorem ofWord_ofLine {m : Mode} {c : CodePoint} {cs : Text} (hstart : StartsLexeme m c)
    (hmark : m.atHead = true → mark? m (c :: cs) = none) (hline : char '\n' ∉ c :: cs)
    (ht : Word.CaretsQuoted false (c :: cs)) (hne : (Word.read false (c :: cs)).value ≠ []) :
    OfLine m (ofWord m (Word.read false (c :: cs))) := by
  obtain ⟨happ, hverbatim, hopen, hrest⟩ := word_ofLine hline ht
  generalize Word.read false (c :: cs) = w at happ hverbatim hopen hrest hne ⊢
  obtain ⟨d, ds, hvalue⟩ := List.exists_cons_of_ne_nil hne
  have hfirst : w.value.head? = some c := by
    rw [hvalue] at happ ⊢
    rw [List.cons_append, List.cons.injEq] at happ
    rw [happ.1]
    rfl
  -- a colon would have been a mark, and an `@` would not have started a lexeme
  have hcolon : m.atHead = true → w.value.head? ≠ some (char ':') := by
    intro hm hc
    rw [hfirst] at hc
    cases hc
    have hnone := hmark hm
    cases cs with
    | nil => cases hnone
    | cons e es =>
      unfold mark? at hnone
      split at hnone <;> simp_all
  have hat : m.atHead = true → w.value.head? ≠ some (char '@') := by
    intro hm hc
    rw [hfirst] at hc
    exact hstart.2.2 ⟨Option.some.inj hc, hm⟩
  refine ⟨?_, fun _ => hopen, hrest⟩
  rw [ofWord]
  cases hm : m.atHead with
  | false => exact .word hne hverbatim fun h => by rw [hm] at h; cases h
  | true =>
    cases hk : Kind.keyword? w.value with
    | none => exact .word hne hverbatim fun _ => ⟨hk, hat hm, hcolon hm⟩
    | some kind => exact .keyword hm (List.mem_of_find?_eq_some hk)

/-- The front of a line with all carets inside quotes. -/
theorem read?_ofLine {m : Mode} {c : CodePoint} {cs : Text} {l : Lexeme} (hm : m.Sound)
    (hstart : StartsLexeme m c) (hline : char '\n' ∉ c :: cs)
    (ht : Word.CaretsQuoted false (c :: cs)) (h : read? m (c :: cs) = some l) : OfLine m l := by
  rcases read?_cases h with ⟨hhead, h⟩ | ⟨hmark, ⟨hr, h⟩ | ⟨kind, rest, hop, rfl⟩ | ⟨hne, rfl⟩⟩
  · exact mark?_ofLine hhead ht h
  · exact handle?_ofLine hm hr hline ht h
  · exact ofOperator_ofLine ht hop
  · exact ofWord_ofLine hstart hmark hline ht hne

/-- A quote always starts a word. -/
theorem read?_quote_ne_none (m : Mode) (cs : Text) : read? m (char '"' :: cs) ≠ none := by
  have hread := Word.read_plain (c := '"') (by decide) cs
  have hop : isOperatorChar '"' = false := by decide
  have htwo : char '"' = '2' → cs.head? ≠ some (char '>') := fun h => by cases h
  have hmark : m.atHead = true → char '"' ≠ ':' := fun _ => by decide
  rw [read?_eq_word hop htwo hmark, word?, hread]
  simp [Word.push]

end Lexeme

theorem Scans.eq_nil {m e : Mode} {p : Place} {t : Text} {ts : List PlacedToken}
    (h : Scans m p t ts e) (ht : t = []) : ts = [] := by
  cases h with
  | nil => rfl
  | _ => cases ht

/-- The tokens of a line with all carets inside quotes. -/
theorem Scans.line {m e : Mode} {p : Place} {t : Text} {ts : List PlacedToken}
    (h : Scans m p t ts e) : m.Sound → char '\n' ∉ t → Word.CaretsQuoted false t →
      Line m (ts.map (·.unplaced)) := by
  induction h with
  | nil =>
    intro _ _ _
    exact .nil
  | @blank m e p c cs ts hc _ ih =>
    intro hm hline ht
    rw [List.mem_cons, not_or] at hline
    have hquote : c ≠ '"' := by
      rintro rfl
      cases hc
    exact ih hm hline.2 (ht.of_cons_of_ne hquote)
  | newLine => simp
  | @hide m e p cs ts hhead _ ih =>
    -- the line is one of the hiding mode, and of the mode before the `@` all the more
    intro hm hline ht
    rw [List.mem_cons, not_or] at hline
    have hrest := ih (hm.hide true) hline.2 (ht.of_cons_of_ne (by decide))
    exact hrest.of_hidesLess ⟨rfl, rfl, rfl, fun _ => rfl⟩
  | @token m e p c cs l ts hc hl hscan ih =>
    intro hm hline ht
    obtain ⟨hfits, hclosed, hrest⟩ := Lexeme.read?_ofLine hm hc hline ht hl
    have happ := (Lexeme.read?_eq_some hl).1
    rw [happ, List.mem_append, not_or] at hline
    have hmode := Lexeme.read?_mode hm hl
    have hline' := ih (hmode ▸ Mode.sound_behind m l.token.kind) hline.2 hrest
    rw [List.map_cons, unplaced_placed]
    refine .cons id hfits (fun hword hopen => ?_) ?_
    · rw [hscan.eq_nil (hclosed (PlacedToken.isWord_iff.1 hword) hopen)]
      rfl
    · rw [Mode.behindToken]
      exact hmode ▸ hline'
  | @skip m e p c cs ts hc hl _ ih =>
    -- what is skipped is no quote, so no quote is opened by it
    intro hm hline ht
    rw [List.mem_cons, not_or] at hline
    have hquote : c ≠ '"' := by
      rintro rfl
      exact Lexeme.read?_quote_ne_none m cs hl
    exact ih hm hline.2 (ht.of_cons_of_ne hquote)

/-- The bare tokens of a line with all carets inside quotes. -/
theorem line_bare {l : Text} (hline : char '\n' ∉ l) (hcarets : Word.CaretsQuoted false l) :
    Line .start (bare .start l) := by
  obtain ⟨e, hscan⟩ := exists_scans_ofText l
  have htokens := hscan.line Mode.sound_start hline hcarets
  rwa [hscan.map_unplaced] at htokens

end Token

end BatchScript
