import Mathlib.Data.List.Induction
import BatchScript.Proofs.Page.Layout

/-!
# Batches in turn

A page takes batches one after another. Each call has one of three outcomes, and what it leaves on
the page is told by the batch alone: nothing of a batch with something foreign, the statements in
front of the first node of no particular sort, or all of them. So a page is what all of these
statements leave on a blank page, however the calls ended.

> `render_renders`: the outcome of one call;
> `renderAll_page`: the page behind any calls;
> `renderAll_spec`: the outcomes, the page and its text for any batches in turn.
-/

namespace BatchScript

/-- No statement is of the general sort. -/
theorem Statement.kindName_ne (s : Statement) : s.kindName ≠ "statement".text := by
  have hredirect : ∀ kind : Redirection.Kind,
      "redirection_".text ++ kind.name ++ "_file".text ≠ "statement".text := by
    intro kind
    cases kind <;> decide +kernel
  cases s with
  | redirect r => exact hredirect r.kind
  | _ =>
    dsimp only [kindName]
    decide +kernel

namespace Item

theorem all_isNode_iff {batch : List Item} : batch.all isNode = true ↔ .foreign ∉ batch := by
  rw [List.all_eq_true]
  constructor
  · intro h hmem
    cases h _ hmem
  · intro h item hitem
    cases item with
    | foreign => exact absurd hitem h
    | _ => rfl

/-- The statements at the front of a batch. -/
def frontStatements : List Item → List Statement
  | .statement s :: items => s :: frontStatements items
  | _ => []

/-- The statements of a batch that are written: none if something in it is foreign, and otherwise
those at its front. -/
def written (batch : List Item) : List Statement :=
  if batch.all isNode then frontStatements batch else []

theorem frontStatements_append (ss : List Statement) (items : List Item) :
    frontStatements (ss.map .statement ++ items) = ss ++ frontStatements items := by
  induction ss with
  | nil => rfl
  | cons s ss ih => rw [List.map_cons, List.cons_append, frontStatements, ih, List.cons_append]

/-- A batch of statements is written as a whole. -/
theorem written_map_statement (ss : List Statement) : written (ss.map .statement) = ss := by
  have hfront : frontStatements (ss.map .statement ++ []) = ss ++ [] := frontStatements_append ss []
  rw [List.append_nil, List.append_nil] at hfront
  rw [written, if_pos (all_isNode_statements ss), hfront]

/-- A batch holds statements only, or statements in front of a first item that is none. -/
theorem exists_front (batch : List Item) :
    (∃ ss : List Statement, batch = ss.map .statement) ∨
      ∃ (before : List Statement) (item : Item) (after : List Item),
        batch = before.map .statement ++ item :: after ∧
          item.kindName = "statement".text := by
  induction batch with
  | nil => exact Or.inl ⟨[], rfl⟩
  | cons item items ih =>
    cases item with
    | statement s =>
      rcases ih with ⟨ss, rfl⟩ | ⟨before, item, after, rfl, hkind⟩
      · exact Or.inl ⟨s :: ss, rfl⟩
      · exact Or.inr ⟨s :: before, item, after, rfl, hkind⟩
    | _ => exact Or.inr ⟨[], _, items, rfl, rfl⟩

/-- The statements at the front end where the first item of the general sort stands. -/
theorem frontStatements_of_kindName {item : Item} (h : item.kindName = "statement".text)
    (items : List Item) : frontStatements (item :: items) = [] := by
  cases item with
  | statement s => exact absurd h s.kindName_ne
  | _ => rfl

end Item

namespace Page

/-! ## One call -/

/-- How a call goes that is given a page and a batch: its result, and the page behind it. -/
inductive Renders (p : Page) : List Item → Except Fault Text → Page → Prop
  | notANode {batch : List Item} : .foreign ∈ batch → Renders p batch (.error .notANode) p
  | noParticularSort {before : List Statement} {item : Item} {after : List Item} :
      .foreign ∉ before.map Item.statement ++ item :: after →
      (∀ s ∈ before, s.kindName ≠ "statement".text) → item.kindName = "statement".text →
      Renders p (before.map .statement ++ item :: after) (.error .noParticularSort)
        (p.addAll before)
  | written {ss : List Statement} : (∀ s ∈ ss, s.kindName ≠ "statement".text) →
      Renders p (ss.map .statement) (.ok (p.addAll ss).text) (p.addAll ss)

/-- A call with nodes only ends at the first one of no particular sort. -/
theorem render_append {p : Page} {before : List Statement} {item : Item} {after : List Item}
    (hnodes : .foreign ∉ before.map Item.statement ++ item :: after)
    (hkind : item.kindName = "statement".text) :
    p.render (before.map .statement ++ item :: after) =
      (.error .noParticularSort, p.addAll before) := by
  have hitem : (p.addAll before).addItems (item :: after) =
      (some .noParticularSort, p.addAll before) := by
    cases item with
    | statement s => exact absurd hkind s.kindName_ne
    | _ => rfl
  rw [render, if_pos (Item.all_isNode_iff.2 hnodes), addItems_append, hitem]

/-- Every call has one of the three outcomes. -/
theorem render_renders (p : Page) (batch : List Item) :
    Renders p batch (p.render batch).1 (p.render batch).2 := by
  by_cases hforeign : .foreign ∈ batch
  · have hnodes : ¬batch.all Item.isNode = true := fun h => Item.all_isNode_iff.1 h hforeign
    rw [render, if_neg hnodes]
    exact .notANode hforeign
  · rcases Item.exists_front batch with ⟨ss, rfl⟩ | ⟨before, item, after, rfl, hkind⟩
    · rw [render_map_statement]
      exact .written fun s _ => s.kindName_ne
    · rw [render_append hforeign hkind]
      exact .noParticularSort hforeign (fun s _ => s.kindName_ne) hkind

/-- What a call leaves on the page is told by the batch. -/
theorem Renders.page_eq {p p' : Page} {batch : List Item} {result : Except Fault Text}
    (h : Renders p batch result p') : p' = p.addAll (Item.written batch) := by
  cases h with
  | notANode hforeign =>
    rw [Item.written, if_neg fun h => Item.all_isNode_iff.1 h hforeign]
    rfl
  | noParticularSort hnodes _ hkind =>
    rw [Item.written, if_pos (Item.all_isNode_iff.2 hnodes), Item.frontStatements_append,
      Item.frontStatements_of_kindName hkind, List.append_nil]
  | written => rw [Item.written_map_statement]

/-- A call that succeeds is given statements only. -/
theorem Renders.exists_of_ok {p p' : Page} {batch : List Item} {text : Text}
    (h : Renders p batch (.ok text) p') :
    ∃ ss : List Statement, batch = ss.map .statement ∧ text = p'.text := by
  cases h with
  | written => exact ⟨_, rfl, rfl⟩

/-! ## Calls in turn -/

/-- The results of calls with the given batches, each on the page that the one before it left, and
the page behind them. -/
def renderAll (p : Page) : List (List Item) → List (Except Fault Text) × Page
  | [] => ([], p)
  | batch :: batches =>
    ((p.render batch).1 :: ((p.render batch).2.renderAll batches).1,
      ((p.render batch).2.renderAll batches).2)

/-- The later calls go on with the page that the earlier ones left. -/
theorem renderAll_append (bs cs : List (List Item)) :
    ∀ p : Page, p.renderAll (bs ++ cs) =
      ((p.renderAll bs).1 ++ ((p.renderAll bs).2.renderAll cs).1,
        ((p.renderAll bs).2.renderAll cs).2) := by
  induction bs with
  | nil => intro p; rfl
  | cons b bs ih =>
    intro p
    rw [List.cons_append, renderAll, ih]
    rfl

/-- The page behind any calls is what the written statements of all batches leave. -/
theorem renderAll_page (batches : List (List Item)) :
    ∀ p : Page, (p.renderAll batches).2 = p.addAll (batches.flatMap Item.written) := by
  induction batches with
  | nil => intro p; rfl
  | cons batch batches ih =>
    intro p
    rw [renderAll, ih, (render_renders p batch).page_eq, List.flatMap_cons, addAll_append]

theorem length_renderAll (batches : List (List Item)) :
    ∀ p : Page, (p.renderAll batches).1.length = batches.length := by
  induction batches with
  | nil => intro p; rfl
  | cons batch batches ih =>
    intro p
    rw [renderAll, List.length_cons, List.length_cons, ih]

/-- One call among others is given the page that those before it left, and leaves the page that the
next one is given. -/
theorem renderAll_renders (p : Page) (before : List (List Item)) (batch : List Item)
    (after : List (List Item)) :
    ∃ result, (p.renderAll (before ++ batch :: after)).1[before.length]? = some result ∧
      Renders (p.renderAll before).2 batch result (p.renderAll (before ++ [batch])).2 := by
  have hlength := length_renderAll before p
  refine ⟨((p.renderAll before).2.render batch).1, ?_, ?_⟩
  · rw [renderAll_append, ← hlength, List.getElem?_append_right (Nat.le_refl _), Nat.sub_self]
    rfl
  · rw [renderAll_append]
    exact render_renders _ batch

/-- Calls that all succeed are given statements only. -/
theorem flatten_of_renderAll {p : Page} {batches : List (List Item)}
    (h : ∀ result ∈ (p.renderAll batches).1, ∃ text, result = .ok text) :
    batches.flatten = (batches.flatMap Item.written).map .statement := by
  induction batches generalizing p with
  | nil => rfl
  | cons batch batches ih =>
    obtain ⟨text, htext⟩ := h _ List.mem_cons_self
    obtain ⟨ss, rfl, -⟩ := (htext ▸ render_renders p batch).exists_of_ok
    have hrest := ih fun result hresult => h result (List.mem_cons_of_mem _ hresult)
    rw [List.flatten_cons, hrest, List.flatMap_cons, List.map_append, Item.written_map_statement]

/-- The last of some calls, if it succeeds, shows the page behind all of them. -/
theorem eq_text_of_getLast? {p : Page} {batches : List (List Item)} {text : Text}
    (h : (p.renderAll batches).1.getLast? = some (.ok text)) :
    text = (p.renderAll batches).2.text := by
  cases batches using List.reverseRecOn with
  | nil => cases h
  | append_singleton before batch =>
    rw [renderAll_append] at h ⊢
    rw [renderAll, renderAll, List.getLast?_concat, Option.some.injEq] at h
    obtain ⟨ss, -, htext⟩ := (h ▸ render_renders (p.renderAll before).2 batch).exists_of_ok
    exact htext

/-- **Batches in turn on one page.** A call with something foreign in its batch leaves the page as
it is; another one fails at the first node of no particular sort, with the statements before it
written; and every other one writes its statements and shows the page. Behind any calls the page is
what all written statements leave on a blank one, and its text is cut at their line breaks. Calls
that all succeed end as one call with all their batches. -/
theorem renderAll_spec (batches : List (List Item)) :
    (blank.renderAll batches).1.length = batches.length ∧
      (∀ (before : List (List Item)) (batch : List Item) (after : List (List Item)),
        batches = before ++ batch :: after →
          ∃ result, (blank.renderAll batches).1[before.length]? = some result ∧
            Renders (blank.renderAll before).2 batch result
              (blank.renderAll (before ++ [batch])).2) ∧
      (blank.renderAll batches).2 = blank.addAll (batches.flatMap Item.written) ∧
      (blank.renderAll batches).2.text =
        Text.joinLines (((batches.flatMap Item.written).splitOn .newLine).map fun group =>
          Text.joinWords (Script.linePieces group)) ∧
      ((∀ result ∈ (blank.renderAll batches).1, ∃ text, result = .ok text) →
        (blank.renderAll batches).2 = (blank.render batches.flatten).2 ∧
          ∀ result, (blank.renderAll batches).1.getLast? = some result →
            result = (blank.render batches.flatten).1) := by
  have hpage := renderAll_page batches blank
  refine ⟨length_renderAll batches blank, ?_, hpage, ?_, fun h => ?_⟩
  · rintro before batch after rfl
    exact renderAll_renders blank before batch after
  · rw [hpage]
    exact Script.render_by_line _
  · -- calls that succeed have written all that they were given
    rw [flatten_of_renderAll h, Script.render_statements]
    refine ⟨hpage, fun result hresult => ?_⟩
    obtain ⟨text, rfl⟩ := h result (List.mem_of_getLast? hresult)
    rw [eq_text_of_getLast? hresult, hpage]
    rfl

/-- A batch with a bare node and one with something foreign between two that are written to their
end, and these two alone. -/
theorem renderAll_spec_four_batches :
    (blank.renderAll [[.statement (.command "a".text)],
        [.statement .newLine, .bare, .statement .andAlways], [.foreign],
        [.statement (.exit [] true)]]).1 =
      [.ok "a".text, .error .noParticularSort, .error .notANode, .ok "a\n@exit".text] ∧
    (blank.renderAll [[.statement (.command "a".text)],
        [.statement .newLine, .bare, .statement .andAlways], [.foreign],
        [.statement (.exit [] true)]]).2 =
      blank.addAll [.command "a".text, .newLine, .exit [] true] ∧
    (∀ result ∈ (blank.renderAll [[.statement (.command "a".text)],
        [.statement .newLine, .statement (.exit [] true)]]).1, ∃ text, result = .ok text) ∧
    (blank.renderAll [[.statement (.command "a".text)],
        [.statement .newLine, .statement (.exit [] true)]]).2 =
      (blank.render [.statement (.command "a".text), .statement .newLine,
        .statement (.exit [] true)]).2 := by
  have hsome : ∀ text : Text, ∃ t, (.ok text : Except Fault Text) = .ok t :=
    fun text => ⟨text, rfl⟩
  have hok : ∀ result ∈ (blank.renderAll [[.statement (.command "a".text)],
      [.statement .newLine, .statement (.exit [] true)]]).1, ∃ text, result = .ok text :=
    List.forall_mem_cons.2 ⟨hsome _, List.forall_mem_singleton.2 (hsome _)⟩
  obtain ⟨-, -, hpage, -⟩ := renderAll_spec [[.statement (.command "a".text)],
    [.statement .newLine, .bare, .statement .andAlways], [.foreign], [.statement (.exit [] true)]]
  obtain ⟨-, -, -, -, hturn⟩ := renderAll_spec [[.statement (.command "a".text)],
    [.statement .newLine, .statement (.exit [] true)]]
  exact ⟨by decide +kernel, hpage, hok, (hturn hok).1⟩

end Page

end BatchScript
