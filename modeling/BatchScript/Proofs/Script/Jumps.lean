import BatchScript.Proofs.Script.ReadBack

/-!
# Labels and jumps that are written by themselves

A label and the target of a jump are bare words. Where all carets of the source stand inside quotes,
or where it has none, such a word stands for itself: behind the mark of a label no word is a handle.

So a jump is always read back. A label is written with its name right behind the mark, while the
source may have blanks between the two. That makes no difference, unless the name starts with a
colon: then the mark and the colon are a comment mark, and the label is read as a comment.

> `exists_start_of_mem`: a statement with a keyword or a label mark starts as at the start of a
> line;
> `ofText_render_statement`: such a statement is read back by itself;
> `ofText_render_label_colon`: a label whose name starts with a colon is read as a comment;
> `ofText_render_jump`: the jumps and labels of a source.
-/

namespace BatchScript

open Token

namespace Token

/-- Where a statement may start, what is left of a line is as a line by itself. -/
theorem Line.start_of_atHead {m : Mode} {ts : List PlacedToken} (hm : m.Sound)
    (hhead : m.atHead = true) (h : Line m ts) : Line .start ts :=
  h.of_hidesLess ⟨hhead.symm, (hm.noComment hhead).symm, (hm.noRedirection hhead).symm,
    fun hhidden => by cases hhidden⟩

/-- A word that stands behind no redirection is no handle, so it stands for itself. -/
theorem Fits.isVerbatim_of_noRedirection {m : Mode} {t : Token} (h : Fits m t)
    (hk : t.kind = .word) (hr : m.afterRedirection = false) :
    Word.isVerbatim false t.value = true := by
  rcases h.isVerbatim_or_handle hk with hv | ⟨hm, -⟩
  · exact hv
  · rw [hr] at hm
    cases hm

end Token

/-- A text without carets has none outside of quotes. -/
theorem Text.CaretsInQuotes.of_not_mem {t : Text} (h : char '^' ∉ t) : t.CaretsInQuotes := by
  rintro before after rfl
  exact absurd (List.mem_append_right before List.mem_cons_self) h

namespace Script

/-! ## One statement of a text -/

/-- A statement that keeps no token is among statements alike. -/
theorem mem_of_forall₂_alike {R : PlacedToken → PlacedToken → Prop} {ss ss' : List Statement}
    {s : Statement} (h : List.Forall₂ (Statement.Alike R) ss ss') (hs : s.unknown? = none) :
    s ∈ ss ↔ s ∈ ss' := by
  induction h with
  | nil => exact Iff.rfl
  | cons hfirst _ ih =>
    rw [List.mem_cons, List.mem_cons, ih]
    cases hfirst with
    | same => exact Iff.rfl
    | unknown =>
      have hne : ∀ t, s ≠ .unknown t := by
        rintro t rfl
        cases hs
      exact or_congr (iff_of_false (hne _) (hne _)) Iff.rfl

/-- A statement of a text is one of a line of it. -/
theorem exists_line_of_mem (t : Text) {ss : List Statement} {s : Statement}
    (hcarets : t.CaretsInQuotes) (h : ofText t = .ok ss) (hs : s ∈ ss) (hline : s ≠ .newLine)
    (hkept : s.unknown? = none) : ∃ l first, char '\n' ∉ l ∧ Word.CaretsQuoted false l ∧
      ofText l = .ok first ∧ s ∈ first := by
  rcases Text.line_cases t with ht | ⟨l, rest, rfl, hl⟩
  · exact ⟨t, ss, ht, hcarets.caretsQuoted ht, h, hs⟩
  · obtain ⟨hcarets₁, hcarets₂⟩ := hcarets.of_append_newLine
    obtain ⟨first, later, below, hfirst, hlater, rfl, hbelow⟩ := exists_of_ofText_append_newLine h
    rcases List.mem_append.1 hs with hs | hs
    · exact ⟨l, first, hl, hcarets₁.caretsQuoted hl, hfirst, hs⟩
    · -- the line break aside, it is a statement of the text behind it
      have hs' := (mem_of_forall₂_alike hbelow hkept).2 (List.mem_of_ne_of_mem hline hs)
      have hlength : rest.length < (l ++ char '\n' :: rest).length := by
        rw [List.length_append, List.length_cons]
        omega
      exact exists_line_of_mem rest hcarets₂ hlater hs' hline hkept
  termination_by t.length

/-- A statement that starts with a keyword or a label mark stands as at the start of a line. -/
theorem exists_start_of_mem {source : Text} {ss : List Statement} {s : Statement}
    (hcarets : source.CaretsInQuotes) (h : ofText source = .ok ss) (hs : s ∈ ss)
    (hline : s ≠ .newLine) (hkept : s.unknown? = none)
    (hstart : ∀ head taken, s.MadeOf (head :: taken) →
      head.kind ∈ Kind.keywords ∨ head.kind = .label) :
    ∃ taken rest, s.MadeOf taken ∧ s.Before rest ∧ Line .start (taken ++ rest) := by
  obtain ⟨l, first, hl, hquoted, hfirst, hmem⟩ :=
    exists_line_of_mem source hcarets h hs hline hkept
  obtain ⟨ss', hmade, halike⟩ := exists_madeOf_of_ofText hfirst
  obtain ⟨before, taken, rest, htokens, htaken, hbefore⟩ :=
    hmade.exists_append ((mem_of_forall₂_alike halike hkept).1 hmem)
  have hall : Line .start (before ++ (taken ++ rest)) := htokens ▸ line_bare hl hquoted
  obtain ⟨head, more, rfl⟩ := List.exists_cons_of_ne_nil (Statement.ne_nil_of_madeOf htaken)
  refine ⟨head :: more, rest, htaken, hbefore, ?_⟩
  exact hall.rest_append.start_of_atHead (Mode.sound_start.behindAll before)
    (hall.rest_append.fits.atHead (hstart head more htaken))

/-- Of two tokens only the second can be a name that starts with a colon. -/
theorem labelsPlain_pair {head target : PlacedToken}
    (h : head.kind = .label → target.value.head? ≠ some (char ':')) :
    LabelsPlain [head, target] := by
  rw [labelsPlain_iff_isChain, List.isChain_pair]
  exact fun hlabel _ => h hlabel

/-- A statement that stands as at the start of a line is read back by itself. -/
theorem ofText_render_statement {s : Statement} {taken rest : List PlacedToken}
    (hline : s ≠ .newLine) (hkept : s.unknown? = none) (hs : s.MadeOf taken)
    (hbefore : s.Before rest) (hstart : Line .start (taken ++ rest)) (hlabels : LabelsPlain taken) :
    ofText (render [s]) = .ok [s] := by
  obtain ⟨s', us, m', hscan, hmade, halike, -⟩ :=
    hs.rewritten hbefore Mode.sound_start Text.behindPiece_nil (fun _ => rfl) hstart hlabels
  obtain rfl : s = s' := by
    cases halike with
    | same => rfl
    | unknown => cases hkept
  rw [List.append_nil, bare_nil, List.append_nil] at hscan
  rw [ofText_eq_singleton_iff hkept, render_line (by simpa using hline.symm), linePieces,
    List.flatMap_singleton, bare_joinWords, hscan]
  exact hmade

/-! ## Labels that start with a colon -/

/-- A label whose name starts with a colon is read as a comment on the rest of the name. -/
theorem ofText_render_label_colon {v : Text} (hv : Word.isVerbatim false v = true) :
    ofText (render [.label (char ':' :: v)]) = .ok [.rem v] := by
  have hrender : render [.label (char ':' :: v)] = char ':' :: char ':' :: v := by
    rw [render_singleton (by simp) (by simp [Statement.pieces])]
    exact Text.joinWords_singleton _
  have hmark := bare_comment v (m := .start) rfl rfl
  rw [ofText_eq_singleton_iff rfl, hrender, hmark]
  by_cases hne : v = []
  · subst hne
    rw [bare_nil]
    exact @Statement.MadeOf.rem (bareToken ⟨.rem, [':', ':']⟩ .start) [] rfl (by simp)
  · have hword := bare_word (m := Mode.start.behind .rem) hne hv Text.behindPiece_nil
      (fun _ => rfl) fun hhead => (by cases hhead)
    rw [List.append_nil, bare_nil] at hword
    have hmade := @Statement.MadeOf.rem (bareToken ⟨.rem, [':', ':']⟩ .start)
      [bareToken ⟨.word, v⟩ (Mode.start.behind .rem)] rfl (List.forall_mem_singleton.2 rfl)
    have htext : Text.joinWords ([bareToken ⟨.word, v⟩ (Mode.start.behind .rem)].map
        (·.spelling)) = v := Text.joinWords_singleton v
    rw [htext] at hmade
    rw [hword]
    exact hmade

/-- **What jumps and labels are read back as.** All carets of the source stand inside quotes, as
they do where it has none. What is written for a jump is read as the same jump. What is written for
a label is read as the same label exactly where its name does not start with a colon; otherwise it
is read as a comment, whose text is the rest of the name. -/
theorem ofText_render_jump {source : Text} {ss : List Statement} (hcarets : source.CaretsInQuotes)
    (h : ofText source = .ok ss) :
    (∀ target invisible, .goto target invisible ∈ ss →
      ofText (render [.goto target invisible]) = .ok [.goto target invisible]) ∧
    ∀ name, .label name ∈ ss →
      (ofText (render [.label name]) = .ok [.label name] ↔ name.head? ≠ some (char ':')) ∧
      ∀ v, name = char ':' :: v → ofText (render [.label name]) = .ok [.rem v] := by
  refine ⟨fun target invisible hs => ?_, fun name hs => ?_⟩
  · obtain ⟨taken, rest, htaken, hbefore, hline⟩ :=
      exists_start_of_mem hcarets h hs (by simp) rfl fun head taken htaken => by
        cases htaken with
        | goto hk => exact Or.inl (by rw [hk]; decide)
    refine ofText_render_statement (by simp) rfl htaken hbefore hline ?_
    cases htaken with
    | goto hk => exact labelsPlain_pair fun hlabel => by rw [hk] at hlabel; cases hlabel
  · obtain ⟨taken, rest, htaken, hbefore, hline⟩ :=
      exists_start_of_mem hcarets h hs (by simp) rfl fun head taken htaken => by
        cases htaken with
        | label hk => exact Or.inr hk
    cases htaken with
    | @label head target hk ht =>
      have hname : Word.isVerbatim false target.value = true :=
        hline.rest.fits.isVerbatim_of_noRedirection (PlacedToken.isWord_iff.1 ht) (by rw [hk]; rfl)
      -- behind the mark a colon makes it a comment mark
      have hcomment : ∀ v, target.value = char ':' :: v →
          ofText (render [.label target.value]) = .ok [.rem v] := by
        intro v hv
        rw [hv] at hname ⊢
        exact ofText_render_label_colon (Bool.and_eq_true_iff.1 hname).2
      refine ⟨⟨fun hread hcolon => ?_, fun hcolon => ?_⟩, hcomment⟩
      · obtain ⟨v, hv⟩ := List.head?_eq_some_iff.1 hcolon
        rw [hcomment v hv] at hread
        cases hread
      · exact ofText_render_statement (by simp) rfl (.label hk ht) hbefore hline
          (labelsPlain_pair fun _ => hcolon)

/-- A hidden jump with a space in its target, and labels with a colon at either end of the name. -/
theorem ofText_render_jump_two_lines :
    ∃ ss, char '^' ∉ "@goto \"a b\" & : :x\n:y:".text ∧
      ofText "@goto \"a b\" & : :x\n:y:".text = .ok ss ∧
      ss = [.goto "\"a b\"".text true, .andAlways, .label ":x".text, .newLine,
        .label "y:".text] ∧
      ofText (render [.goto "\"a b\"".text true]) = .ok [.goto "\"a b\"".text true] ∧
      ofText (render [.label ":x".text]) = .ok [.rem "x".text] ∧
      ofText (render [.label "y:".text]) = .ok [.label "y:".text] := by
  have hcarets : char '^' ∉ "@goto \"a b\" & : :x\n:y:".text := by decide +kernel
  have hread : ofText "@goto \"a b\" & : :x\n:y:".text =
      .ok [.goto "\"a b\"".text true, .andAlways, .label ":x".text, .newLine,
        .label "y:".text] := by decide +kernel
  obtain ⟨hgoto, hlabel⟩ := ofText_render_jump (.of_not_mem hcarets) hread
  refine ⟨_, hcarets, hread, rfl, hgoto _ _ (by simp), ?_, ?_⟩
  · exact (hlabel ":x".text (by simp)).2 "x".text rfl
  · exact (hlabel "y:".text (by simp)).1.2 (by decide)

/-- A label with a blank in front of a name that starts with a colon is read back as a comment. -/
theorem ofText_render_label_ne_of_colon :
    char '^' ∉ ": :a".text ∧
      ofText ": :a".text = .ok [.label ":a".text] ∧
      render [.label ":a".text] = "::a".text ∧
      ofText "::a".text = .ok [.rem "a".text] ∧
      ofText (render [.label ":a".text]) ≠ .ok [.label ":a".text] := by
  refine ⟨?_, ?_, ?_, ?_, ?_⟩ <;> decide +kernel

end Script

end BatchScript
