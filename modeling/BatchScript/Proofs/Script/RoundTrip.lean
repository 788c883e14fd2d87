import BatchScript.Proofs.Script.Lines
import BatchScript.Proofs.Statement.Rewritten

/-!
# A script in normal form is read as the same script

The text that is written for a script is scanned and read again. Line by line, statement by
statement and piece by piece the same things are found: a statement takes the same words and clauses
as before, since what stands behind it starts as it did before.

> `MadeOf.reread`: the statements of a line;
> `ofText_render_ofText`: a whole script, and its text is not changed by writing it once more.
-/

namespace BatchScript

open Token

/-! ## How statements start -/

/-- Tokens that a statement in front of them cannot tell apart. -/
structure StartAlike (ts us : List PlacedToken) : Prop where
  word : startsWithWord ts = startsWithWord us
  clause : startsWithClause ts = startsWithClause us
  lineEnd : atLineEnd ts = atLineEnd us

namespace Statement

/-- Whether a statement starts with a bare word. -/
def startsWord : Statement → Bool
  | .command _ => true
  | _ => false

/-- Whether a statement starts with a clause, or does so together with a word behind it. -/
def startsClause (wordBehind : Bool) : Statement → Bool
  | .redirect _ => true
  | .unknown t => t.kind.redirection?.isSome && wordBehind
  | _ => false

/-- Whether a statement ends its line. -/
def endsLine : Statement → Bool
  | .newLine => true
  | _ => false

/-- No clause starts with a token that redirects nothing. -/
theorem startsWithClause_of_head {head : PlacedToken} (hk : head.kind.redirection? = none)
    (ts : List PlacedToken) : startsWithClause (head :: ts) = false := by
  cases ts with
  | nil => rfl
  | cons t ts => rw [startsWithClause, hk]; rfl

/-- How the tokens of a statement start is seen from the statement. -/
theorem MadeOf.start {s : Statement} {ts : List PlacedToken} (h : s.MadeOf ts)
    (rest : List PlacedToken) :
    startsWithWord (ts ++ rest) = s.startsWord ∧
      startsWithClause (ts ++ rest) = s.startsClause (startsWithWord rest) ∧
      atLineEnd (ts ++ rest) = s.endsLine := by
  cases h with
  | @redirect head target kind hk ht =>
    refine ⟨?_, ?_, ?_⟩
    · simp [startsWithWord, PlacedToken.isWord, hk, startsWord]
    · simp [startsWithClause, hk, ht, Kind.redirection?, startsClause]
    · simp [atLineEnd, PlacedToken.endsLine, hk, endsLine]
  | @unknown head hk =>
    -- a head of this sort is neither a word nor a line break
    have hkind : head.kind ≠ .word ∧ head.kind ≠ .newLine := by
      refine ⟨fun h => ?_, fun h => ?_⟩
      all_goals
        rw [h] at hk
        cases hk
    refine ⟨?_, ?_, ?_⟩
    · simp [startsWithWord, PlacedToken.isWord, hkind, startsWord]
    · cases rest <;> simp [startsWithClause, startsWithWord, startsClause]
    · simp [atLineEnd, PlacedToken.endsLine, hkind, endsLine]
  | echo hk | echoLine hk | exit hk | set hk | command hk | goto hk | label hk | rem hk
  | andIfSuccess hk | andAlways hk | newLine hk =>
    refine ⟨?_, startsWithClause_of_head (by rw [hk]; rfl) _, ?_⟩
    · simp [startsWithWord, PlacedToken.isWord, hk, startsWord]
    · simp [atLineEnd, PlacedToken.endsLine, hk, endsLine]

/-- Statements that are alike start alike where what stands behind them does. -/
theorem startAlike_append {s s' : Statement} {ts us rest rest' : List PlacedToken}
    (hs : s.MadeOf ts) (hs' : s'.MadeOf us) (h : s.Alike PlacedToken.SameSpelling s')
    (hrest : StartAlike rest rest') : StartAlike (ts ++ rest) (us ++ rest') := by
  obtain ⟨hword, hclause, hend⟩ := hs.start rest
  obtain ⟨hword', hclause', hend'⟩ := hs'.start rest'
  have hsame : s.startsWord = s'.startsWord ∧
      (∀ b, s.startsClause b = s'.startsClause b) ∧ s.endsLine = s'.endsLine := by
    cases h with
    | same => exact ⟨rfl, fun _ => rfl, rfl⟩
    | unknown htu => exact ⟨rfl, fun b => by rw [startsClause, startsClause, htu.kind], rfl⟩
  refine ⟨?_, ?_, ?_⟩
  · rw [hword, hword', hsame.1]
  · rw [hclause, hclause', hrest.word, hsame.2.1]
  · rw [hend, hend', hsame.2.2]

/-- A statement ends where a statement alike ends. -/
theorem Before.of_alike {s s' : Statement} {rest rest' : List PlacedToken} (h : s.Before rest)
    (hs : s.Alike PlacedToken.SameSpelling s') (hrest : StartAlike rest rest') :
    s'.Before rest' := by
  cases hs with
  | same =>
    cases s with
    | echo _ _ r =>
      cases r with
      | none => exact ⟨hrest.word.symm.trans h.1, hrest.clause.symm.trans h.2⟩
      | some _ => exact hrest.clause.symm.trans h
    | echoLine => exact hrest.clause.symm.trans h
    | exit | set | command => exact hrest.word.symm.trans h
    | rem => exact hrest.lineEnd.symm.trans h
    | unknown => exact fun hop => hrest.word.symm.trans (h hop)
    | _ => exact trivial
  | unknown htu =>
    rw [Before, ← htu.kind, ← hrest.word]
    exact h

end Statement

theorem LabelsPlain.map_unplaced {ts : List PlacedToken} (h : LabelsPlain ts) :
    LabelsPlain (ts.map (·.unplaced)) := by
  intro before label word after hts hlabel hword
  obtain ⟨before', rest, rfl, -, hrest⟩ := List.map_eq_append_iff.1 hts
  obtain ⟨label', rest', rfl, rfl, hrest'⟩ := List.map_eq_cons_iff.1 hrest
  obtain ⟨word', after', rfl, rfl, -⟩ := List.map_eq_cons_iff.1 hrest'
  exact h before' label' word' after' rfl hlabel hword

/-! ## The statements of a line -/

namespace Script

theorem MadeOf.eq_nil {ss : List Statement} {ts : List PlacedToken} (h : MadeOf ss ts)
    (hts : ts = []) : ss = [] := by
  cases h with
  | nil => rfl
  | cons hs => exact absurd (List.append_eq_nil_iff.1 hts).1 (Statement.ne_nil_of_madeOf hs)

/-- What is written for the statements of a line is scanned as tokens that make up statements
alike. -/
theorem MadeOf.reread {ss : List Statement} {ts : List PlacedToken} (h : MadeOf ss ts) :
    ∀ {m : Mode}, m.Sound → Line m ts → LabelsPlain ts →
      ∃ ss', MadeOf ss' (bare m (Text.spaced (linePieces ss))) ∧
        List.Forall₂ (Statement.Alike PlacedToken.SameSpelling) ss ss' ∧
        StartAlike ts (bare m (Text.spaced (linePieces ss))) := by
  induction h with
  | nil =>
    intro m _ _ _
    have hbare : bare m (Text.spaced (linePieces [])) = [] := bare_nil m
    rw [hbare]
    exact ⟨[], .nil, .nil, rfl, rfl, rfl⟩
  | @cons s ss ts rest hs hbefore hrest ih =>
    intro m hm hline hlabels
    have hnil : rest = [] → Text.spaced (linePieces ss) = [] := by
      intro h
      rw [hrest.eq_nil h]
      rfl
    obtain ⟨hlabels₁, hlabels₂⟩ := hlabels.of_append
    -- the first statement is scanned with the rest of the line as what follows
    obtain ⟨s', us, m', hscan, hs', halike, hm', hline'⟩ :=
      hs.rewritten hbefore hm (Text.behindPiece_spaced _) hnil hline hlabels₁
    obtain ⟨ss', hss', hall, hstart⟩ := ih hm' hline' hlabels₂
    rw [linePieces_cons, Text.spaced_append, hscan]
    exact ⟨s' :: ss', .cons hs' (hbefore.of_alike halike hstart) hss', .cons halike hall,
      Statement.startAlike_append hs hs' halike hstart⟩

/-! ## Alike, by way of others -/

/-- Statements alike to statements alike are alike. -/
theorem forall₂_alike_trans {ss ss' ss'' : List Statement}
    (h : List.Forall₂ (Statement.Alike PlacedToken.SameSpelling) ss ss')
    (h' : List.Forall₂ (Statement.Alike PlacedToken.SameSpelling) ss' ss'') :
    List.Forall₂ (Statement.Alike PlacedToken.SameSpelling) ss ss'' := by
  induction h generalizing ss'' with
  | nil => exact h'
  | cons hs _ ih =>
    cases h' with
    | cons hs' hrest' =>
      refine .cons ?_ (ih hrest')
      cases hs with
      | same => exact hs'
      | unknown htu =>
        cases hs' with
        | same => exact .unknown htu
        | unknown huv => exact .unknown (htu.trans huv)

theorem forall₂_alike_imp {R S : PlacedToken → PlacedToken → Prop} (hRS : ∀ t u, R t u → S t u)
    {ss ss' : List Statement} (h : List.Forall₂ (Statement.Alike R) ss ss') :
    List.Forall₂ (Statement.Alike S) ss ss' := by
  refine h.imp fun s s' hs => ?_
  cases hs with
  | same => exact .same s
  | unknown htu => exact .unknown (hRS _ _ htu)

/-- Statements that are alike are alike the other way round. -/
theorem forall₂_alike_flip {R S : PlacedToken → PlacedToken → Prop} (hRS : ∀ t u, R t u → S u t)
    {ss ss' : List Statement} (h : List.Forall₂ (Statement.Alike R) ss ss') :
    List.Forall₂ (Statement.Alike S) ss' ss := by
  refine (h.imp (S := fun s s' => Statement.Alike S s' s) fun s s' hs => ?_).flip
  cases hs with
  | same => exact .same s
  | unknown htu => exact .unknown (hRS _ _ htu)

/-! ## One line -/

/-- A space in front of joined texts does not change the tokens. -/
theorem bare_joinWords (m : Mode) (ps : List Text) :
    bare m (Text.joinWords ps) = bare m (Text.spaced ps) := by
  cases ps with
  | nil => rfl
  | cons p ps => rw [Text.spaced_eq_cons_joinWords (List.cons_ne_nil p ps), bare_space]

/-- What is written for a line is read as the line. -/
theorem ofText_render_line {l : Text} {ss : List Statement} (hline : char '\n' ∉ l)
    (hcarets : Word.CaretsQuoted false l) (hlabels : LabelsPlain (Token.ofText l))
    (h : ofText l = .ok ss) :
    ∃ ss', ofText (render ss) = .ok ss' ∧
      List.Forall₂ (Statement.Alike PlacedToken.SameSpelling) ss ss' := by
  have hsame : ∀ t u : PlacedToken, u = t.unplaced → t.SameSpelling u := by
    rintro t u rfl
    exact ⟨rfl, rfl⟩
  -- the statements of the bare tokens, which write the same text
  obtain ⟨ss₀, hmade, halike⟩ := exists_madeOf_of_ofText h
  have halike₀ := forall₂_alike_imp hsame halike
  have hrender : render ss = render ss₀ := render_alike (fun t u htu => htu.spelling) halike₀
  have hnone : .newLine ∉ ss₀ := by
    refine (render_within_line hmade fun t ht => ?_).1
    obtain ⟨u, hu, rfl⟩ := List.mem_map.1 ht
    exact (ofText_within_line hline u hu).1
  -- the text that is written, scanned again
  have htokens : Line .start (bare .start l) := line_bare hline hcarets
  obtain ⟨ss₁, hmade₁, halike₁, -⟩ :=
    hmade.reread Mode.sound_start htokens hlabels.map_unplaced
  rw [← bare_joinWords, ← render_line hnone, ← hrender] at hmade₁
  obtain ⟨ss₂, hread, halike₂⟩ := exists_of_bare_madeOf hmade₁
  refine ⟨ss₂, hread, forall₂_alike_trans halike₀ (forall₂_alike_trans halike₁ ?_)⟩
  refine forall₂_alike_imp ?_ halike₂
  rintro t u rfl
  exact ⟨rfl, rfl⟩

end Script

/-! ## Whole scripts -/

/-- Every caret stands inside quotes: an odd number of quotes stands before it on its line. -/
def Text.CaretsInQuotes (t : Text) : Prop :=
  ∀ before after, t = before ++ char '^' :: after → (lastLine before).count (char '"') % 2 = 1

/-- Whether all carets stand inside quotes is found by looking at each place of the text. -/
theorem Text.caretsInQuotes_iff (t : Text) : t.CaretsInQuotes ↔
    ∀ i < t.length, t[i]? = some (char '^') → (lastLine (t.take i)).count (char '"') % 2 = 1 := by
  constructor
  · intro h i hi hcaret
    refine h (t.take i) (t.drop (i + 1)) ?_
    obtain ⟨_, hchar⟩ := List.getElem?_eq_some_iff.1 hcaret
    rw [← hchar, ← List.drop_eq_getElem_cons, List.take_append_drop]
  · rintro h before after rfl
    have hodd := h before.length (by simp) (by simp)
    rwa [List.take_left] at hodd

instance (t : Text) : Decidable t.CaretsInQuotes :=
  decidable_of_iff' _ t.caretsInQuotes_iff

/-- On one line, carets that stand inside quotes are those with an open quote before them. -/
theorem Text.CaretsInQuotes.caretsQuoted {l : Text} (h : l.CaretsInQuotes) (hl : char '\n' ∉ l) :
    Word.CaretsQuoted false l := by
  intro before after hcut
  have hbefore : char '\n' ∉ before := fun hmem => hl (hcut ▸ List.mem_append_left _ hmem)
  have hodd := h before after hcut
  rw [lastLine_of_not_mem hbefore] at hodd
  rw [Word.isOpen_eq, hodd]
  rfl

/-- The carets of a line, and of the text behind it. -/
theorem Text.CaretsInQuotes.of_append_newLine {l rest : Text}
    (h : (l ++ char '\n' :: rest).CaretsInQuotes) : l.CaretsInQuotes ∧ rest.CaretsInQuotes := by
  refine ⟨fun before after hcut => ?_, fun before after hcut => ?_⟩
  · exact h before (after ++ char '\n' :: rest) (by rw [hcut]; simp)
  · have hodd := h (l ++ char '\n' :: before) after (by rw [hcut]; simp)
    rwa [lastLine_append_newLine] at hodd

theorem LabelsPlain.map_down {ts : List PlacedToken} {lines : Int}
    (h : LabelsPlain (ts.map (·.down lines))) : LabelsPlain ts := by
  intro before label word after hts hlabel hword
  have hmap := congrArg (List.map (·.down lines)) hts
  rw [List.map_append, List.map_cons, List.map_cons] at hmap
  exact h _ (label.down lines) (word.down lines) _ hmap hlabel hword

namespace Script

/-- A text that is read is a line that is read, and a text behind it that is read further down. -/
theorem exists_of_ofText_append_newLine {l rest : Text} {ss : List Statement}
    (h : ofText (l ++ char '\n' :: rest) = .ok ss) :
    ∃ first later below, ofText l = .ok first ∧ ofText rest = .ok later ∧
      ss = first ++ .newLine :: below ∧
      List.Forall₂ (Statement.Alike fun t u => u = t.down (l.count (char '\n') + 1))
        later below := by
  cases hl : ofText l with
  | error e =>
    rw [ofText_append_newLine_of_error rest hl] at h
    cases h
  | ok first =>
    cases hr : ofText rest with
    | error e =>
      rw [ofText_append_newLine_of_ok rest hl, read_down_of_error _ hr] at h
      cases h
    | ok later =>
      obtain ⟨below, hbelow, halike⟩ := ofText_append_newLine hl hr
      rw [hbelow] at h
      cases h
      exact ⟨first, later, below, rfl, rfl, rfl, halike⟩

theorem sameSpelling_down {lines : Int} (t u : PlacedToken) (h : u = t.down lines) :
    t.SameSpelling u ∧ u.SameSpelling t := by
  rw [h]
  exact ⟨⟨rfl, rfl⟩, ⟨rfl, rfl⟩⟩

/-- What is written for a script is read as the script. -/
theorem exists_ofText_render (t : Text) {ss : List Statement} (hcarets : t.CaretsInQuotes)
    (hlabels : LabelsPlain (Token.ofText t)) (h : ofText t = .ok ss) :
    ∃ ss', ofText (render ss) = .ok ss' ∧
      List.Forall₂ (Statement.Alike PlacedToken.SameSpelling) ss ss' := by
  rcases Text.line_cases t with hline | ⟨l, rest, rfl, hl⟩
  · exact ofText_render_line hline (hcarets.caretsQuoted hline) hlabels h
  · -- the conditions hold of the line and of the text behind it
    obtain ⟨newLine, -, htokens⟩ := Token.ofText_append_newLine l rest
    rw [htokens] at hlabels
    obtain ⟨hlabels₁, hlabels₂⟩ := hlabels.of_append
    have hlabels₃ := hlabels₂.of_cons.map_down
    obtain ⟨hcarets₁, hcarets₂⟩ := hcarets.of_append_newLine
    obtain ⟨first, later, below, hfirst, hlater, rfl, hbelow⟩ := exists_of_ofText_append_newLine h
    obtain ⟨first', hfirst', halike₁⟩ :=
      ofText_render_line hl (hcarets₁.caretsQuoted hl) hlabels₁ hfirst
    have hlength : rest.length < (l ++ char '\n' :: rest).length := by
      rw [List.length_append, List.length_cons]
      omega
    obtain ⟨later', hlater', halike₂⟩ := exists_ofText_render rest hcarets₂ hlabels₃ hlater
    obtain ⟨below', hread, hbelow'⟩ := ofText_append_newLine hfirst' hlater'
    -- the statements further down are those of the text by itself, and so are the ones read again
    have hup := forall₂_alike_flip (fun t u h => (sameSpelling_down t u h).2) hbelow
    have hdown := forall₂_alike_imp (fun t u h => (sameSpelling_down t u h).1) hbelow'
    have hrender : render below = render later :=
      render_alike (fun t u htu => htu.spelling) hup
    refine ⟨first' ++ .newLine :: below', ?_, ?_⟩
    · rw [render_append_newLine, hrender]
      exact hread
    · have hall := forall₂_alike_trans hup (forall₂_alike_trans halike₂ hdown)
      exact List.rel_append halike₁ (.cons (.same .newLine) hall)
  termination_by t.length

/-- **A script in normal form is read as the script it was written for.** All carets of the source
stand inside quotes, and no label mark is followed by a word that starts with a colon. Then what is
written for the statements of the source is read as the same statements, where tokens that are no
statement have the same kind, and is not changed by writing it once more. -/
theorem ofText_render_ofText {source : Text} {ss : List Statement}
    (hcarets : source.CaretsInQuotes) (hlabels : LabelsPlain (Token.ofText source))
    (h : ofText source = .ok ss) :
    ∃ ss', ofText (render ss) = .ok ss' ∧
      List.Forall₂ (Statement.Alike fun t u => t.kind = u.kind) ss ss' ∧
      render ss' = render ss := by
  obtain ⟨ss', hread, halike⟩ := exists_ofText_render source hcarets hlabels h
  refine ⟨ss', hread, forall₂_alike_imp (fun t u htu => htu.kind) halike, ?_⟩
  exact (render_alike (fun t u htu => htu.spelling) halike).symm

/-- A hidden echo with a clause that is dropped, a comment with a handle that is redirected, a
label, and an assignment with a caret in its quotes. -/
theorem ofText_render_ofText_four_lines :
    ∃ ss ss', ofText "@Echo a >x>\"y  z\" & |\n::2>&1 \"^\n:a > <\nset v=\"a^&\" ".text = .ok ss ∧
      render ss = "@echo a > \"y  z\" & |\nrem 2> &1 \"^\n:a > <\nset v=a^^^&".text ∧
      ofText (render ss) = .ok ss' ∧
      List.Forall₂ (Statement.Alike fun t u => t.kind = u.kind) ss ss' ∧
      render ss' = render ss := by
  have hcarets : Text.CaretsInQuotes
      "@Echo a >x>\"y  z\" & |\n::2>&1 \"^\n:a > <\nset v=\"a^&\" ".text := by decide +kernel
  have hlabels : LabelsPlain (Token.ofText
      "@Echo a >x>\"y  z\" & |\n::2>&1 \"^\n:a > <\nset v=\"a^&\" ".text) := by decide +kernel
  have hread : ofText "@Echo a >x>\"y  z\" & |\n::2>&1 \"^\n:a > <\nset v=\"a^&\" ".text =
      .ok [.echo ["a".text] true (some ⟨.overwrite, "\"y  z\"".text⟩), .andAlways,
        .unknown ⟨⟨.pipe, "|".text⟩, true, 1, 21⟩, .newLine, .rem "2> &1 \"^".text, .newLine,
        .label "a".text, .unknown ⟨⟨.redirect .overwrite, ">".text⟩, false, 3, 4⟩,
        .unknown ⟨⟨.input, "<".text⟩, false, 3, 6⟩, .newLine,
        .set ["v".text] "a^&".text false] := by decide +kernel
  obtain ⟨ss', hss'⟩ := ofText_render_ofText hcarets hlabels hread
  exact ⟨_, ss', hread, by decide +kernel, hss'⟩

end Script

end BatchScript
