import BatchScript.Proofs.Page.Layout
import BatchScript.Proofs.Page.Operand
import BatchScript.Proofs.Script.Alike
import BatchScript.Proofs.Token.Lexeme

/-!
# What statements put on a line

The pieces of a statement are made of the texts of its tokens, of fixed spellings, and of the carets
and quotes of operands. So tokens that hold no line break make statements that write none, and
statements that differ only in where their tokens stand are written alike.

> `render_within_line`: statements made of tokens within a line are written within a line;
> `render_alike`: statements that are alike, with the same spellings, are written alike.
-/

namespace BatchScript

/-! ## Alike -/

section

variable {R : PlacedToken → PlacedToken → Prop} (hR : ∀ t u, R t u → t.spelling = u.spelling)
include hR

/-- Statements alike are written alike. -/
theorem Page.add_alike {s s' : Statement} (h : s.Alike R s') (p : Page) : p.add s = p.add s' := by
  cases h with
  | same => rfl
  | @unknown t u htu =>
    show p.write [t.spelling] = p.write [u.spelling]
    rw [hR t u htu]

/-- Statements that are alike, with the same spellings, are written alike. -/
theorem Script.render_alike {ss ss' : List Statement}
    (h : List.Forall₂ (Statement.Alike R) ss ss') : render ss = render ss' := by
  have hpage : ∀ p : Page, p.addAll ss = p.addAll ss' := by
    induction h with
    | nil => intro p; rfl
    | cons hs _ ih =>
      intro p
      rw [Page.addAll, List.foldl_cons, Page.add_alike hR hs]
      exact ih _
  rw [render, render, hpage]

end

/-! ## Within a line -/

/-- Only the spelling of a line break holds one. -/
theorem Token.Kind.not_mem_spelling {kind : Token.Kind} {t : Text} (hk : kind ≠ .newLine)
    (ht : kind.spelling? = some t) : char '\n' ∉ t := by
  cases kind with
  | newLine => exact absurd rfl hk
  | redirect k =>
    cases ht
    cases k <;> decide
  | word | other _ => cases ht
  | _ =>
    cases ht
    decide

/-- A token within a line is spelled within one. -/
theorem Token.WithinLine.not_mem_spelling {t : Token} (h : t.WithinLine) :
    char '\n' ∉ t.spelling := by
  rw [Token.spelling]
  cases hs : t.kind.spelling? with
  | none => exact h.2
  | some text => exact Kind.not_mem_spelling h.1 hs

/-- Texts without a line break are joined without one. -/
theorem Text.not_mem_joinWords {ts : List Text} (h : ∀ t ∈ ts, char '\n' ∉ t) :
    char '\n' ∉ joinWords ts := by
  intro hmem
  rcases mem_joinWords hmem with hc | ⟨t, ht, hc⟩
  · cases hc
  · exact h t ht hc

theorem not_mem_commandName {name : Text} (h : char '\n' ∉ name) (invisible : Bool) :
    char '\n' ∉ commandName name invisible := by
  unfold commandName
  split
  · simpa using h
  · exact h

theorem Operand.not_mem_write {t : Text} (h : char '\n' ∉ t) : char '\n' ∉ write t := by
  intro hmem
  rcases mem_write hmem with hc | hc | hc
  · exact h hc
  · cases hc
  · cases hc

namespace Redirection

theorem not_mem_text {r : Redirection} (h : char '\n' ∉ r.target) : char '\n' ∉ r.text := by
  have hspelling : char '\n' ∉ r.kind.spelling := by cases r.kind <;> decide
  rw [text]
  split <;> simp [hspelling, h]

/-- The target of clauses is one of their words. -/
theorem MadeOf.exists_target {r : Redirection} {ts : List PlacedToken}
    (h : MadeOf (some r) ts) : ∃ t ∈ ts, t.isWord = true ∧ t.value = r.target := by
  generalize hr : some r = o at h
  induction h with
  | nil => cases hr
  | @last marker target kind _ htarget =>
    cases hr
    exact ⟨target, by simp, htarget, rfl⟩
  | overridden _ _ _ ih =>
    obtain ⟨t, ht, hword, hvalue⟩ := ih hr
    exact ⟨t, List.mem_cons_of_mem _ (List.mem_cons_of_mem _ ht), hword, hvalue⟩

/-- Clauses of tokens within a line are written within one. -/
theorem MadeOf.pieces_within_line {r : Option Redirection} {ts : List PlacedToken}
    (h : MadeOf r ts) (hts : ∀ t ∈ ts, t.WithinLine) : ∀ piece ∈ pieces r, char '\n' ∉ piece := by
  cases r with
  | none => simp [pieces]
  | some r =>
    obtain ⟨t, ht, -, hvalue⟩ := h.exists_target
    intro piece hpiece
    rw [pieces, List.mem_singleton] at hpiece
    rw [hpiece]
    exact not_mem_text (hvalue ▸ (hts t ht).2)

end Redirection

namespace Statement

/-- An assignment that is made of tokens within a line holds no line break. -/
theorem not_mem_sides {words : List PlacedToken} {name value : Text}
    (hjoin : Text.joinWords (words.map (·.value)) = name ++ char '=' :: value)
    (hwords : ∀ w ∈ words, w.WithinLine) :
    (∀ part ∈ Text.words (Assignment.side name), char '\n' ∉ part) ∧
      char '\n' ∉ Assignment.side value := by
  have hall : char '\n' ∉ name ++ char '=' :: value := by
    rw [← hjoin]
    apply Text.not_mem_joinWords
    intro t ht
    obtain ⟨w, hw, rfl⟩ := List.mem_map.1 ht
    exact (hwords w hw).2
  simp only [List.mem_append, List.mem_cons, not_or] at hall
  refine ⟨fun part hpart hmem => ?_, fun hmem => hall.2.2 (Assignment.mem_side hmem)⟩
  exact hall.1 (Assignment.mem_side ((Text.mem_words hpart).2 _ hmem))

/-- What is made of tokens within a line is no line break, and writes none. -/
theorem MadeOf.pieces_within_line {s : Statement} {ts : List PlacedToken} (h : s.MadeOf ts)
    (hts : ∀ t ∈ ts, t.WithinLine) : s ≠ .newLine ∧ ∀ piece ∈ s.pieces, char '\n' ∉ piece := by
  -- the words of a statement are tokens of the line
  have hvalues : ∀ words : List PlacedToken, (∀ w ∈ words, w ∈ ts) →
      ∀ piece ∈ words.map (·.value), char '\n' ∉ piece := by
    intro words hwords piece hpiece
    obtain ⟨w, hw, rfl⟩ := List.mem_map.1 hpiece
    exact (hts w (hwords w hw)).2
  cases h with
  | @echo head words clauses r _ _ hr =>
    have hname := not_mem_commandName (show char '\n' ∉ "echo".text by decide) head.invisible
    have hwords := hvalues words fun w hw => by simp [hw]
    have hclauses := hr.pieces_within_line fun t ht => hts t (by simp [ht])
    refine ⟨by simp, fun piece hpiece => ?_⟩
    rw [pieces, List.mem_append, List.mem_cons] at hpiece
    rcases hpiece with (rfl | hpiece) | hpiece
    · exact hname
    · exact hwords piece hpiece
    · exact hclauses piece hpiece
  | @echoLine head clauses r _ hr =>
    have hname := not_mem_commandName (show char '\n' ∉ "echo.".text by decide) head.invisible
    have hclauses := hr.pieces_within_line fun t ht => hts t (by simp [ht])
    refine ⟨by simp, fun piece hpiece => ?_⟩
    rcases List.mem_cons.1 hpiece with rfl | hpiece
    · exact hname
    · exact hclauses piece hpiece
  | @exit head words _ _ =>
    have hname := not_mem_commandName (show char '\n' ∉ "exit".text by decide) head.invisible
    have hwords := hvalues words fun w hw => by simp [hw]
    refine ⟨by simp, fun piece hpiece => ?_⟩
    rcases List.mem_cons.1 hpiece with rfl | hpiece
    · exact hname
    · exact hwords piece hpiece
  | @set head words name value _ _ hjoin _ =>
    have hname := not_mem_commandName (show char '\n' ∉ "set".text by decide) head.invisible
    obtain ⟨hparts, hvalue⟩ := not_mem_sides hjoin fun w hw => hts w (by simp [hw])
    have hwritten := Operand.not_mem_write (Text.not_mem_joinWords hparts)
    refine ⟨by simp, fun piece hpiece => ?_⟩
    simp only [pieces, List.mem_cons, List.not_mem_nil, or_false] at hpiece
    rcases hpiece with rfl | rfl
    · exact hname
    · simp [hwritten, Operand.not_mem_write hvalue]
  | @command head words _ _ =>
    refine ⟨by simp, fun piece hpiece => ?_⟩
    rw [pieces, List.mem_singleton] at hpiece
    rw [hpiece]
    exact Text.not_mem_joinWords (hvalues (head :: words) fun w hw => hw)
  | @goto head target _ _ =>
    have hname := not_mem_commandName (show char '\n' ∉ "goto".text by decide) head.invisible
    refine ⟨by simp, fun piece hpiece => ?_⟩
    simp only [pieces, List.mem_cons, List.not_mem_nil, or_false] at hpiece
    rcases hpiece with rfl | rfl
    · exact hname
    · exact (hts target (by simp)).2
  | @label head target _ _ =>
    have htarget := (hts target (by simp)).2
    exact ⟨by simp, by simpa [pieces] using htarget⟩
  | @redirect head target kind _ _ =>
    have htarget : char '\n' ∉ (Redirection.mk kind target.value).target := (hts target (by simp)).2
    exact ⟨by simp, by simpa [pieces] using Redirection.not_mem_text htarget⟩
  | @rem head line _ _ =>
    have htext : char '\n' ∉ Text.joinWords (line.map (·.spelling)) := by
      apply Text.not_mem_joinWords
      intro t ht
      obtain ⟨u, hu, rfl⟩ := List.mem_map.1 ht
      exact (hts u (by simp [hu])).not_mem_spelling
    exact ⟨by simp, by simpa [pieces] using htext⟩
  | andIfSuccess | andAlways => exact ⟨by simp, by simp [pieces]⟩
  | @newLine head hk => exact absurd hk (hts head (by simp)).1
  | @unknown head _ =>
    have hspelling := (hts head (by simp)).not_mem_spelling
    exact ⟨by simp, by simpa [pieces] using hspelling⟩

end Statement

namespace Script

/-- Statements made of tokens within a line are written within a line. -/
theorem render_within_line {ss : List Statement} {ts : List PlacedToken} (h : MadeOf ss ts)
    (hts : ∀ t ∈ ts, t.WithinLine) : .newLine ∉ ss ∧ char '\n' ∉ render ss := by
  have hall : ∀ s ∈ ss, s ≠ .newLine ∧ ∀ piece ∈ s.pieces, char '\n' ∉ piece := by
    induction h with
    | nil => simp
    | cons hs _ _ ih =>
      intro s hmem
      rcases List.mem_cons.1 hmem with rfl | hmem
      · exact hs.pieces_within_line fun t ht => hts t (List.mem_append_left _ ht)
      · exact ih (fun t ht => hts t (List.mem_append_right _ ht)) s hmem
  have hnone : .newLine ∉ ss := fun hmem => (hall _ hmem).1 rfl
  refine ⟨hnone, ?_⟩
  rw [render_line hnone]
  apply Text.not_mem_joinWords
  intro piece hpiece
  obtain ⟨s, hs, hmem⟩ := List.mem_flatMap.1 (List.mem_of_mem_filter hpiece)
  exact (hall s hs).2 piece hmem

end Script

end BatchScript
