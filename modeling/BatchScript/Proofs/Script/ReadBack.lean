import BatchScript.Proofs.Script.RoundTrip
import BatchScript.Proofs.Statement.Known
import BatchScript.Proofs.Token.Carets
import BatchScript.Proofs.Token.StandAlone
import BatchScript.Proofs.Token.Tidy

/-!
# Which statements are read back

The words of an echo, of an exit and of a comment are written as they are, without carets. So a word
that had a caret in the source may be read back as something else, also if it holds no operator
character: a space becomes a gap between two words, and a quote opens a quoted part.

What is written tells apart the words that are read back. No text holds fewer carets than its
tokens, and one that holds no more is scanned without taking any caret away. If a statement is read
back, its tokens hold all the carets that were written, so its words are as they stand on a line.
The other direction is the scan of such words.

> `ofText_render_iff`: an echo and an exit without operator characters in the words are read back
> exactly where the words stand for themselves behind one another, and a comment exactly where its
> text is empty or tidy.
-/

namespace BatchScript

open Token

/-! ## Carets of what is written -/

namespace Text

/-- How many carets texts hold. -/
def carets (ts : List Text) : Nat :=
  ts.flatten.count (char '^')

theorem carets_cons (t : Text) (ts : List Text) :
    carets (t :: ts) = t.count (char '^') + carets ts := by
  rw [carets, List.flatten_cons, List.count_append, ← carets]

theorem carets_singleton (t : Text) : carets [t] = t.count (char '^') := by
  rw [carets, List.flatten_singleton]

theorem carets_append (ts us : List Text) : carets (ts ++ us) = carets ts + carets us := by
  rw [carets, List.flatten_append, List.count_append, ← carets, ← carets]

/-- Joining adds no carets. -/
theorem count_joinWords (ts : List Text) : (joinWords ts).count (char '^') = carets ts := by
  cases ts with
  | nil => rfl
  | cons t ts =>
    have hspaced : ∀ us : List Text, (spaced us).count (char '^') = carets us := by
      intro us
      induction us with
      | nil => rfl
      | cons u us ih =>
        rw [spaced_cons, List.count_cons_of_ne (by decide), List.count_append, ih, carets_cons]
    rw [joinWords_cons, List.count_append, hspaced, carets_cons]

end Text

theorem count_commandName {name : Text} (h : char '^' ∉ name) (invisible : Bool) :
    (commandName name invisible).count (char '^') = 0 := by
  cases invisible with
  | false => exact List.count_eq_zero_of_not_mem h
  | true =>
    rw [commandName, if_pos rfl, List.count_cons_of_ne (by decide)]
    exact List.count_eq_zero_of_not_mem h

/-- A redirection holds the carets of its target. -/
theorem Redirection.count_text (r : Redirection) :
    r.text.count (char '^') = r.target.count (char '^') := by
  have hspelling : r.kind.spelling.count (char '^') = 0 := by
    cases r.kind <;> decide
  rw [text]
  split
  · rw [List.count_append, hspelling, Nat.zero_add]
  · rw [List.count_append, hspelling, List.count_cons_of_ne (by decide), Nat.zero_add]

theorem Redirection.carets_pieces (r : Option Redirection) :
    Text.carets (pieces r) = Text.carets (r.toList.map (·.target)) := by
  cases r with
  | none => rfl
  | some r =>
    show Text.carets [r.text] = Text.carets [r.target]
    rw [Text.carets_singleton, Text.carets_singleton, r.count_text]

theorem Token.carets_eq (ts : List PlacedToken) : carets ts = Text.carets (ts.map (·.value)) := by
  rw [carets, Text.carets, List.flatMap_def]

/-- Clauses hold the carets of the target that counts, and those of the others. -/
theorem Redirection.MadeOf.carets_le {r : Option Redirection} {ts : List PlacedToken}
    (h : MadeOf r ts) : Text.carets (r.toList.map (·.target)) ≤ carets ts := by
  induction h with
  | nil => exact Nat.le_refl _
  | @last marker target kind _ _ =>
    rw [Token.carets_cons, Token.carets_cons]
    show Text.carets [target.value] ≤ _
    rw [Text.carets_singleton]
    omega
  | @overridden marker target kind r ts _ _ _ ih =>
    rw [Token.carets_cons, Token.carets_cons]
    omega

/-! ## One statement -/

namespace Script

/-- A text is read as one statement where its bare tokens make that statement up. -/
theorem ofText_eq_singleton_iff {t : Text} {s : Statement} (hs : s.unknown? = none) :
    ofText t = .ok [s] ↔ s.MadeOf (bare .start t) := by
  -- a statement that keeps no token is alike only to itself
  have hsame : ∀ {R : PlacedToken → PlacedToken → Prop} {ss : List Statement},
      List.Forall₂ (Statement.Alike R) [s] ss → ss = [s] := by
    intro R ss h
    cases h with
    | cons hfirst hrest =>
      cases hrest
      cases hfirst with
      | same => rfl
      | unknown => cases hs
  constructor
  · intro h
    obtain ⟨ss, hmade, halike⟩ := exists_madeOf_of_ofText h
    rw [hsame halike] at hmade
    generalize bare .start t = ts at hmade
    cases hmade with
    | cons hs _ hrest =>
      cases hrest
      rwa [List.append_nil]
  · intro h
    have hmade : MadeOf [s] (bare .start t) := by
      have hcons := MadeOf.cons h s.before_nil .nil
      rwa [List.append_nil] at hcons
    obtain ⟨ss, hread, halike⟩ := exists_of_bare_madeOf hmade
    rw [hread, hsame halike]

/-- What is written for one statement that ends no line. -/
theorem render_singleton {s : Statement} (hs : s ≠ .newLine) (hne : ∀ p ∈ s.pieces, p ≠ []) :
    render [s] = Text.joinWords s.pieces := by
  rw [render_line (by simpa using Ne.symm hs), linePieces, List.flatMap_singleton,
    filter_eq_of_ne_nil hne]

section Command

variable {s : Statement} {kind : Kind} {ps : List Text} {invisible : Bool} (hs : s ≠ .newLine)
  (hk : kind ∈ Kind.keywords) (hpieces : s.pieces = commandName kind.fixedText invisible :: ps)
  (hps : ∀ p ∈ ps, p ≠ [])
include hs hk hpieces hps

/-- What is written for a command. -/
theorem render_command :
    render [s] = Text.joinWords (commandName kind.fixedText invisible :: ps) := by
  have hname := commandName_ne_nil (spelling_keyword hk).1 invisible
  rw [render_singleton hs (by rw [hpieces]; exact List.forall_mem_cons.2 ⟨hname, hps⟩), hpieces]

/-- The tokens of a written command. -/
theorem bare_render_command :
    bare .start (render [s]) = bareToken ⟨kind, kind.fixedText⟩ (Mode.start.hide invisible) ::
      bare ((Mode.start.hide invisible).behind kind) (Text.spaced ps) := by
  rw [render_command hs hk hpieces hps, Text.joinWords_cons]
  exact bare_commandName rfl hk (Text.behindPiece_spaced ps) invisible

/-- The words of a written command stand for themselves if its tokens have lost no caret. -/
theorem line_render_command (hline : ∀ p ∈ ps, char '\n' ∉ p)
    (hcarets : Text.carets ps ≤ carets (bare .start (render [s]))) :
    Line .start (bare .start (render [s])) := by
  have hspelling : ∀ k ∈ Kind.keywords, char '\n' ∉ k.fixedText ∧ char '^' ∉ k.fixedText := by
    decide
  obtain ⟨hname, hcaret⟩ := hspelling kind hk
  have hwithin : char '\n' ∉ render [s] := by
    rw [render_command hs hk hpieces hps]
    exact Text.not_mem_joinWords
      (List.forall_mem_cons.2 ⟨not_mem_commandName hname invisible, hline⟩)
  have hcount : (render [s]).count (char '^') = Text.carets ps := by
    rw [render_command hs hk hpieces hps, Text.count_joinWords, Text.carets_cons,
      count_commandName hcaret, Nat.zero_add]
  exact line_of_carets_le hwithin (by omega)

end Command

/-! ## Words and a redirection -/

/-- The target of clauses stands for itself if the clauses stand as such on a line. -/
theorem standAlone_target {r : Option Redirection} {ts : List PlacedToken}
    (h : Redirection.MadeOf r ts) (hfree : ∀ v ∈ r.toList.map (·.target), Word.OperatorFree v) :
    ∀ {m : Mode}, Line m ts → Word.StandAlone (r.toList.map (·.target)) := by
  induction h with
  | nil => exact fun _ => Word.standAlone_nil
  | @last marker target kind _ ht =>
    intro m hline
    have hv := hline.rest.fits.isVerbatim (PlacedToken.isWord_iff.1 ht)
      (hfree target.value List.mem_cons_self).no_operator
    exact Word.standAlone_cons.2 ⟨hv, fun _ => rfl, Word.standAlone_nil⟩
  | overridden _ _ _ ih => exact fun hline => ih hfree hline.rest.rest

/-- Words and clauses that have lost no caret give words and a target that stand for themselves
behind one another. -/
theorem standAlone_of_line {head : PlacedToken} {words clauses : List PlacedToken}
    {r : Option Redirection}
    (hfree : ∀ v ∈ words.map (·.value) ++ r.toList.map (·.target), Word.OperatorFree v)
    (hwords : ∀ w ∈ words, w.isWord = true) (hclauses : Redirection.MadeOf r clauses)
    (hline : Text.carets (words.map (·.value) ++ Redirection.pieces r) ≤
      carets (head :: (words ++ clauses)) → Line .start (head :: (words ++ clauses))) :
    Word.StandAlone (words.map (·.value) ++ r.toList.map (·.target)) := by
  rw [List.forall_mem_append] at hfree
  have hcarets : Text.carets (words.map (·.value) ++ Redirection.pieces r) ≤
      carets (head :: (words ++ clauses)) := by
    have htarget := hclauses.carets_le
    rw [Text.carets_append, Redirection.carets_pieces, carets_cons, carets_eq, List.map_append,
      Text.carets_append, ← carets_eq clauses]
    omega
  have hrest := (hline hcarets).rest
  have hnil : clauses = [] → r.toList.map (·.target) = [] := by
    rintro rfl
    cases hclauses
    rfl
  exact hrest.standAlone hnil (standAlone_target hclauses hfree.2 hrest.rest_append) hwords
    fun w hw => hfree.1 w.value (List.mem_map_of_mem hw)

section Operands

variable {words : List Text} {r : Option Redirection}
  (hfree : ∀ v ∈ words ++ r.toList.map (·.target), Word.OperatorFree v)
include hfree

/-- What is written for words and a redirection lies within a line. -/
theorem operands_within_line : ∀ p ∈ words ++ Redirection.pieces r, p ≠ [] ∧ char '\n' ∉ p := by
  rw [List.forall_mem_append] at hfree
  refine List.forall_mem_append.2 ⟨fun p hp => ⟨(hfree.1 p hp).ne_nil, (hfree.1 p hp).within_line⟩,
    fun p hp => ⟨Redirection.pieces_ne_nil r p hp, ?_⟩⟩
  cases r with
  | none => cases hp
  | some r =>
    have htarget := hfree.2 r.target List.mem_cons_self
    rw [List.mem_singleton.1 hp]
    exact Redirection.not_mem_text htarget.within_line

/-- Written words and a written redirection whose words stand for themselves are scanned as they
are. -/
theorem bare_operands {m : Mode} (hm : m.atHead = false) (hr : m.afterRedirection = false)
    (h : Word.StandAlone (words ++ r.toList.map (·.target))) :
    ∃ clauses, Redirection.MadeOf r clauses ∧
      bare m (Text.spaced (words ++ Redirection.pieces r)) = wordTokens m words ++ clauses := by
  have hne : ∀ w ∈ words, w ≠ [] := fun w hw => (hfree w (List.mem_append_left _ hw)).ne_nil
  rw [Text.spaced_append]
  cases r with
  | none =>
    refine ⟨[], .nil, ?_⟩
    show bare m (Text.spaced words ++ []) = _
    rw [bare_standAlone hm hr Text.behindPiece_nil (fun _ => rfl) hne h, bare_nil]
  | some r =>
    obtain ⟨kind, target⟩ := r
    have hop : Kind.redirect kind ∈ Kind.operators := by cases kind <;> decide
    have hmem : target ∈ words ++ [target] := List.mem_append_right words List.mem_cons_self
    -- the tokens of the clause, as they were written
    have hline : Line m ([bareToken ⟨.redirect kind, kind.spelling⟩ m,
        bareToken ⟨.word, target⟩ m] ++ []) := by
      refine .cons id (.operator hop) (fun hword => (by cases hword)) (.cons id ?_ (fun _ _ => rfl)
        .nil)
      refine .word (hfree target hmem).ne_nil (h.verbatim target hmem) fun hhead => ?_
      cases hhead
    have hmade := @Redirection.MadeOf.last (bareToken ⟨.redirect kind, kind.spelling⟩ m)
      (bareToken ⟨.word, target⟩ m) kind rfl rfl
    obtain ⟨-, us, hus, hscan⟩ :=
      bare_clauses Text.behindPiece_nil (fun _ => rfl) hmade hm hr hline
    rw [List.append_nil, bare_nil, List.append_nil] at hscan
    refine ⟨us, hus, ?_⟩
    rw [← hscan]
    exact bare_standAlone hm hr (Text.behindPiece_spaced _) (fun h => (by cases h)) hne h

end Operands

/-- Behind a keyword neither a statement nor a handle may start. -/
theorem behind_command {kind : Kind} (hk : kind ∈ Kind.keywords) (m : Mode) :
    (m.behind kind).atHead = false ∧ (m.behind kind).afterRedirection = false := by
  obtain ⟨hchain, hredirection⟩ := isChain_keyword hk
  rw [Mode.behind, hchain, hredirection]
  exact ⟨rfl, rfl⟩

/-- An exit is read back where its words stand for themselves behind one another. -/
theorem ofText_render_exit_iff {words : List Text} (hfree : ∀ w ∈ words, Word.OperatorFree w)
    (invisible : Bool) :
    ofText (render [.exit words invisible]) = .ok [.exit words invisible] ↔
      Word.StandAlone words := by
  have hk : Kind.exit ∈ Kind.keywords := by decide
  have hs : Statement.exit words invisible ≠ .newLine := by simp
  have hps : ∀ p ∈ words, p ≠ [] := fun p hp => (hfree p hp).ne_nil
  rw [ofText_eq_singleton_iff rfl]
  constructor
  · -- the words read back are those that were written, so nothing was taken off them
    intro h
    have hline := line_render_command hs hk rfl hps fun p hp => (hfree p hp).within_line
    generalize bare .start (render [.exit words invisible]) = ts at h hline
    cases h with
    | @exit head words hhead hwords =>
      have halone := standAlone_of_line (r := none) (by simpa using hfree) hwords .nil
        (by simpa [Redirection.pieces] using hline)
      simpa using halone
  · intro h
    obtain ⟨hhead, hr⟩ := behind_command hk (Mode.start.hide invisible)
    obtain ⟨clauses, hclauses, hscan⟩ :=
      bare_operands (r := none) (by simpa using hfree) hhead hr (by simpa using h)
    cases hclauses
    rw [Redirection.pieces, List.append_nil, List.append_nil] at hscan
    rw [bare_render_command hs hk rfl hps, hscan]
    have hmade := @Statement.MadeOf.exit
      (bareToken ⟨.exit, Kind.exit.fixedText⟩ (Mode.start.hide invisible)) _ rfl
      (isWord_wordTokens ((Mode.start.hide invisible).behind .exit) words)
    rwa [map_value_wordTokens] at hmade

/-- An echo is read back where its words and its target stand for themselves behind one another. -/
theorem ofText_render_echo_iff {words : List Text} {r : Option Redirection}
    (hfree : ∀ v ∈ words ++ r.toList.map (·.target), Word.OperatorFree v) (invisible : Bool) :
    ofText (render [.echo words invisible r]) = .ok [.echo words invisible r] ↔
      Word.StandAlone (words ++ r.toList.map (·.target)) := by
  have hk : Kind.echo ∈ Kind.keywords := by decide
  have hs : Statement.echo words invisible r ≠ .newLine := by simp
  have hpieces : (Statement.echo words invisible r).pieces =
      commandName Kind.echo.fixedText invisible :: (words ++ Redirection.pieces r) := rfl
  have hps := operands_within_line hfree
  have hne : ∀ p ∈ words ++ Redirection.pieces r, p ≠ [] := fun p hp => (hps p hp).1
  rw [ofText_eq_singleton_iff rfl]
  constructor
  · intro h
    have hline := line_render_command hs hk hpieces hne fun p hp => (hps p hp).2
    -- the tokens are named before the cases, which tell what they make up
    generalize bare .start (render [.echo words invisible r]) = ts at h hline
    cases h with
    | @echo head words clauses r hhead hwords hclauses =>
      exact standAlone_of_line hfree hwords hclauses hline
  · intro h
    obtain ⟨hhead, hr⟩ := behind_command hk (Mode.start.hide invisible)
    obtain ⟨clauses, hclauses, hscan⟩ := bare_operands hfree hhead hr h
    rw [bare_render_command hs hk hpieces hne, hscan]
    have hmade := @Statement.MadeOf.echo
      (bareToken ⟨.echo, Kind.echo.fixedText⟩ (Mode.start.hide invisible)) _ _ _ rfl
      (isWord_wordTokens ((Mode.start.hide invisible).behind .echo) words) hclauses
    rwa [map_value_wordTokens] at hmade

/-! ## Comments -/

/-- A spelling holds no more carets than the value. -/
theorem count_spelling_le (t : Token) : t.spelling.count (char '^') ≤ t.value.count (char '^') := by
  obtain ⟨kind, value⟩ := t
  cases kind with
  | word | other _ => exact Nat.le_refl _
  | redirect kind =>
    have hnone : kind.spelling.count (char '^') = 0 := by cases kind <;> decide
    show kind.spelling.count (char '^') ≤ _
    omega
  | echo | echoLine | exit | goto | label | rem | set | newLine | andIfSuccess | andAlways | pipe
  | input => exact Nat.zero_le _

/-- Spellings hold no more carets than values. -/
theorem carets_spelling_le (ts : List PlacedToken) :
    Text.carets (ts.map (·.spelling)) ≤ carets ts := by
  induction ts with
  | nil => exact Nat.le_refl _
  | cons t ts ih =>
    have hfirst := count_spelling_le t.toToken
    rw [List.map_cons, Text.carets_cons, carets_cons]
    omega

/-- The tokens of a line end no line. -/
theorem endsLine_of_mem_bare {m : Mode} {t : Text} (ht : char '\n' ∉ t) :
    ∀ u ∈ bare m t, u.endsLine = false := by
  obtain ⟨ts, e, h⟩ := exists_scans m .start t
  rw [← h.map_unplaced]
  intro u hu
  obtain ⟨v, hv, rfl⟩ := List.mem_map.1 hu
  exact beq_eq_false_iff_ne.2 (h.within_line ht v hv).1.1

/-- A tidy text of operators and of words without operator characters is spelled as it is written in
a comment. -/
theorem joinWords_spelling_of_isTidy {m : Mode} (hm : m.atHead = false) (hc : m.inComment = true)
    {ws : List Text} (hws : ∀ w ∈ ws, char '\n' ∉ w ∧
      ((∃ kind ∈ Kind.operators, w = kind.fixedText) ∨ ∀ c ∈ w, isOperatorChar c = false))
    (hne : ws ≠ []) (htidy : isTidy false true (Text.joinWords ws) = true) :
    Text.joinWords ((bare m (Text.spaced [Text.joinWords ws])).map (·.spelling)) =
      Text.joinWords ws := by
  obtain ⟨ps, hspaced, hps⟩ := exists_isPiece hws
  rw [Text.spaced_singleton, ← Text.spaced_eq_cons_joinWords hne, ← hspaced]
  rw [Text.spaced_eq_cons_joinWords hne] at hspaced
  have hpsne : ps ≠ [] := by
    rintro rfl
    cases hspaced
  rw [Text.spaced_eq_cons_joinWords hpsne] at hspaced
  obtain ⟨-, hjoin⟩ := List.cons.inj hspaced
  -- the spellings and the pieces are the same behind their first spaces
  have hspelled := spaced_spelling_of_isTidy ps hm hc hps fun _ => by rwa [hjoin]
  have hts : (bare m (Text.spaced ps)).map (·.spelling) ≠ [] := by
    intro hnil
    rw [hnil, Text.spaced_eq_cons_joinWords hpsne] at hspelled
    cases hspelled
  rw [Text.spaced_eq_cons_joinWords hts] at hspelled
  rw [← hjoin]
  exact (List.cons.inj (hspelled.trans (Text.spaced_eq_cons_joinWords hpsne))).2

/-- A comment is read back where it is empty or tidy. -/
theorem ofText_render_rem_iff {ws : List Text} (hws : ∀ w ∈ ws, char '\n' ∉ w ∧
    ((∃ kind ∈ Kind.operators, w = kind.fixedText) ∨ ∀ c ∈ w, isOperatorChar c = false)) :
    ofText (render [.rem (Text.joinWords ws)]) = .ok [.rem (Text.joinWords ws)] ↔
      Text.joinWords ws = [] ∨ isTidy false true (Text.joinWords ws) = true := by
  by_cases hnil : Text.joinWords ws = []
  · rw [hnil]
    exact iff_of_true (by decide +kernel) (Or.inl rfl)
  have hk : Kind.rem ∈ Kind.keywords := by decide
  have hs : Statement.rem (Text.joinWords ws) ≠ .newLine := by simp
  have hpieces : (Statement.rem (Text.joinWords ws)).pieces =
      commandName Kind.rem.fixedText false :: [Text.joinWords ws] := rfl
  have hps : ∀ p ∈ [Text.joinWords ws], p ≠ [] := List.forall_mem_singleton.2 hnil
  have hwithin : char '\n' ∉ Text.joinWords ws := Text.not_mem_joinWords fun w hw => (hws w hw).1
  rw [or_iff_right hnil, ofText_eq_singleton_iff rfl]
  constructor
  · -- what is read back has no fewer carets than the text, so the text is scanned as it stands
    intro h
    have hline := line_render_command hs hk hpieces hps (List.forall_mem_singleton.2 hwithin)
    generalize Text.joinWords ws = text at h hline hnil
    generalize bare .start (render [.rem text]) = ts at h hline
    cases h with
    | @rem head line hhead hends =>
      have hcarets := carets_spelling_le line
      rw [← Text.count_joinWords] at hcarets
      have htokens := hline (by rw [Text.carets_singleton, carets_cons]; omega)
      have hrest := htokens.rest
      rw [hhead] at hrest
      exact hrest.isTidy rfl rfl fun hline => hnil (by rw [hline]; rfl)
  · -- a tidy text is the spellings of its own tokens
    intro htidy
    have hne : ws ≠ [] := by
      rintro rfl
      exact hnil rfl
    have hends : ∀ u ∈ bare ((Mode.start.hide false).behind .rem) (Text.spaced [Text.joinWords ws]),
        u.endsLine = false := by
      refine endsLine_of_mem_bare ?_
      rw [Text.spaced_singleton, List.mem_cons, not_or]
      exact ⟨by decide, hwithin⟩
    have hmade := @Statement.MadeOf.rem
      (bareToken ⟨.rem, Kind.rem.fixedText⟩ (Mode.start.hide false)) _ rfl hends
    rw [bare_render_command hs hk hpieces hps]
    rwa [joinWords_spelling_of_isTidy rfl rfl hws hne htidy] at hmade

/-! ## The statements of a text -/

/-- How a token of a text without operator characters in its words is spelled. -/
theorem spelling_cases {t : PlacedToken} (hknown : t.kind ∈ Kind.known)
    (hline : t.kind = .word → char '\n' ∉ t.value) (hends : t.endsLine = false)
    (hops : t.isWord = true → t.value.any isOperatorChar = false) : char '\n' ∉ t.spelling ∧
      ((∃ kind ∈ Kind.operators, t.spelling = kind.fixedText) ∨
        ∀ c ∈ t.spelling, isOperatorChar c = false) := by
  have hall : ∀ k ∈ Kind.known, k = .word ∨ k = .newLine ∨ (k.spelling? ≠ none ∧
      char '\n' ∉ k.fixedText ∧ (k ∈ Kind.operators ∨
        k.fixedText.any isOperatorChar = false)) := by decide
  rcases hall t.kind hknown with hk | hk | ⟨hspelling, hwithin, hcases⟩
  · have hword : t.isWord = true := PlacedToken.isWord_iff.2 hk
    rw [spelling_of_isWord hword]
    exact ⟨hline hk, Or.inr (by simpa using hops hword)⟩
  · rw [PlacedToken.endsLine, hk] at hends
    cases hends
  · rw [spelling_eq_fixedText hspelling]
    refine ⟨hwithin, hcases.imp (fun hk => ⟨t.kind, hk, rfl⟩) fun hnone => ?_⟩
    simpa using hnone

/-- **Which echoes, exits and comments are read back.** No word of the source holds an operator
character. What is written for an echo or an exit is read as the same statement exactly where its
words, and the target of its redirection, stand for themselves behind one another. What is written
for a comment is read as the same comment exactly where its text is empty or tidy. -/
theorem ofText_render_iff {source : Text} {ss : List Statement} (h : ofText source = .ok ss)
    (hops : ∀ t ∈ Token.ofText source, t.isWord = true → t.value.any isOperatorChar = false) :
    (∀ words invisible r, .echo words invisible r ∈ ss →
      (ofText (render [.echo words invisible r]) = .ok [.echo words invisible r] ↔
        Word.StandAlone (words ++ r.toList.map (·.target)))) ∧
    (∀ words invisible, .exit words invisible ∈ ss →
      (ofText (render [.exit words invisible]) = .ok [.exit words invisible] ↔
        Word.StandAlone words)) ∧
    ∀ text, .rem text ∈ ss →
      (ofText (render [.rem text]) = .ok [.rem text] ↔
        text = [] ∨ isTidy false true text = true) := by
  have hmade := read_eq_ok_iff.1 h
  -- each operand is the value of a word of the source, so it holds no operator character
  have hfree : ∀ t ∈ Token.ofText source, t.isWord = true → Word.OperatorFree t.value :=
    fun t ht hword => operatorFree_of_mem ht hword (hops t ht hword)
  refine ⟨fun words invisible r hs => ?_, fun words invisible hs => ?_, fun text hs => ?_⟩
  · obtain ⟨taken, htaken, hmem⟩ := hmade.exists_tokens hs
    cases htaken with
    | @echo head words clauses r hk hwords hclauses =>
      refine ofText_render_echo_iff (List.forall_mem_append.2 ⟨?_, ?_⟩) head.invisible
      · intro v hv
        obtain ⟨w, hw, rfl⟩ := List.mem_map.1 hv
        exact hfree w (hmem w (by simp [hw])) (hwords w hw)
      · cases r with
        | none => exact fun v hv => by cases hv
        | some r =>
          obtain ⟨target, htarget, hword, hvalue⟩ := hclauses.exists_target
          have htargetfree := hfree target (hmem target (by simp [htarget])) hword
          rw [hvalue] at htargetfree
          exact List.forall_mem_singleton.2 htargetfree
  · obtain ⟨taken, htaken, hmem⟩ := hmade.exists_tokens hs
    cases htaken with
    | @exit head words hk hwords =>
      refine ofText_render_exit_iff (fun v hv => ?_) head.invisible
      obtain ⟨w, hw, rfl⟩ := List.mem_map.1 hv
      exact hfree w (hmem w (by simp [hw])) (hwords w hw)
  · obtain ⟨taken, htaken, hmem⟩ := hmade.exists_tokens hs
    cases htaken with
    | @rem head line hk hends =>
      refine ofText_render_rem_iff fun w hw => ?_
      obtain ⟨t, ht, rfl⟩ := List.mem_map.1 hw
      have hsource := hmem t (List.mem_cons_of_mem head ht)
      exact spelling_cases (Token.known_of_mem_ofText hsource)
        (fun hk => (withinLine_of_isWord hsource (PlacedToken.isWord_iff.2 hk)).2) (hends t ht)
        (hops t hsource)

/-- A space behind a caret parts the word of an echo, while an exit with a quote that is left open
and a comment with a quoted part are read back. -/
theorem ofText_render_iff_three_lines :
    ∃ ss, ofText "@echo a^ b >\"c d\"\nexit /b \"0  1\n:: x > \"y  z\"".text = .ok ss ∧
      ss = [.echo ["a b".text] true (some ⟨.overwrite, "\"c d\"".text⟩), .newLine,
        .exit ["/b".text, "\"0  1".text] false, .newLine, .rem "x > \"y  z\"".text] ∧
      (∀ t ∈ Token.ofText "@echo a^ b >\"c d\"\nexit /b \"0  1\n:: x > \"y  z\"".text,
        t.isWord = true → t.value.any isOperatorChar = false) ∧
      ofText (render [.echo ["a b".text] true (some ⟨.overwrite, "\"c d\"".text⟩)]) ≠
        .ok [.echo ["a b".text] true (some ⟨.overwrite, "\"c d\"".text⟩)] ∧
      ofText (render [.exit ["/b".text, "\"0  1".text] false]) =
        .ok [.exit ["/b".text, "\"0  1".text] false] ∧
      ofText (render [.rem "x > \"y  z\"".text]) = .ok [.rem "x > \"y  z\"".text] := by
  have hread : ofText "@echo a^ b >\"c d\"\nexit /b \"0  1\n:: x > \"y  z\"".text =
      .ok [.echo ["a b".text] true (some ⟨.overwrite, "\"c d\"".text⟩), .newLine,
        .exit ["/b".text, "\"0  1".text] false, .newLine, .rem "x > \"y  z\"".text] := by
    decide +kernel
  have hops : ∀ t ∈ Token.ofText "@echo a^ b >\"c d\"\nexit /b \"0  1\n:: x > \"y  z\"".text,
      t.isWord = true → t.value.any isOperatorChar = false := by decide +kernel
  obtain ⟨hecho, hexit, hrem⟩ := ofText_render_iff hread hops
  refine ⟨_, hread, rfl, hops, ?_, (hexit _ _ (by simp)).2 (by decide), ?_⟩
  · rw [ne_eq, hecho _ _ _ (by simp)]
    decide
  · exact (hrem _ (by simp)).2 (Or.inr (by decide))

/-- An echo of one word with a space in it is read back as an echo of two words. -/
theorem ofText_render_ne_of_protected_space :
    ofText "echo a^ b".text = .ok [.echo ["a b".text] false none] ∧
      (∀ t ∈ Token.ofText "echo a^ b".text,
        t.isWord = true → t.value.any isOperatorChar = false) ∧
      render [.echo ["a b".text] false none] = "echo a b".text ∧
      ofText "echo a b".text = .ok [.echo ["a".text, "b".text] false none] ∧
      ofText (render [.echo ["a b".text] false none]) ≠
        .ok [.echo ["a b".text] false none] := by
  refine ⟨?_, ?_, ?_, ?_, ?_⟩ <;> decide +kernel

end Script

end BatchScript
