import BatchScript.Page.Renderer
import BatchScript.Proofs.Text.Lines

/-!
# How a page is laid out

A page is written line by line: the statements between two line breaks put their pieces on one line,
a space between neighbours, and know nothing of the lines around them.

> `render_line`: statements without a line break are their pieces, joined by spaces;
> `render_append_newLine`: the text of statements, a line break and more statements is the two texts
> with a line break between them;
> `render_by_line`: so the text is one line for each part between two line breaks.
-/

namespace BatchScript

theorem Item.all_isNode_statements (ss : List Statement) :
    (ss.map Item.statement).all isNode = true := by
  simp [isNode]

namespace Page

theorem addAll_append (p : Page) (ss ss' : List Statement) :
    p.addAll (ss ++ ss') = (p.addAll ss).addAll ss' :=
  List.foldl_append

/-- The page with finished lines above it. -/
def below (lines : List Text) (p : Page) : Page :=
  { p with lines := lines ++ p.lines }

/-- Finished lines above a page do not change what a statement adds to it. -/
theorem add_below (lines : List Text) (p : Page) (s : Statement) :
    (p.below lines).add s = (p.add s).below lines := by
  cases s with
  | newLine => simp [add, endLine, below]
  | _ => rfl

/-- What is written does not depend on the finished lines. -/
theorem addAll_below (lines : List Text) (ss : List Statement) :
    ∀ p : Page, (p.below lines).addAll ss = (p.addAll ss).below lines := by
  induction ss with
  | nil => intro p; rfl
  | cons s ss ih =>
    intro p
    rw [addAll, List.foldl_cons, add_below]
    exact ih (p.add s)

/-- The statements at the front of a batch are written, and then what is behind them. -/
theorem addItems_append (ss : List Statement) (items : List Item) :
    ∀ p : Page, p.addItems (ss.map .statement ++ items) = (p.addAll ss).addItems items := by
  induction ss with
  | nil => intro p; rfl
  | cons s ss ih => intro p; exact ih (p.add s)

/-- A batch of statements is written to its end. -/
theorem render_map_statement (p : Page) (ss : List Statement) :
    p.render (ss.map .statement) = (.ok (p.addAll ss).text, p.addAll ss) := by
  have hitems := addItems_append ss [] p
  rw [List.append_nil] at hitems
  rw [render, if_pos (Item.all_isNode_statements ss), hitems]
  rfl

end Page

namespace Script

/-- What statements put on their line, without empty pieces. -/
def linePieces (ss : List Statement) : List Text :=
  (ss.flatMap Statement.pieces).filter (!·.isEmpty)

theorem linePieces_cons (s : Statement) (ss : List Statement) :
    linePieces (s :: ss) = s.pieces.filter (!·.isEmpty) ++ linePieces ss := by
  rw [linePieces, List.flatMap_cons, List.filter_append]
  rfl

/-- Statements without a line break add their pieces to the current line. -/
theorem addAll_line : ∀ (ss : List Statement) (p : Page), .newLine ∉ ss →
    p.addAll ss = ⟨p.lines, p.current ++ linePieces ss⟩
  | [], p, _ => by
    rw [show linePieces [] = [] from rfl, List.append_nil]
    rfl
  | s :: ss, p, h => by
    rw [List.mem_cons, not_or] at h
    have hs : p.add s = p.write s.pieces := by
      cases s with
      | newLine => exact absurd rfl h.1
      | _ => rfl
    have hrest := addAll_line ss (p.write s.pieces) h.2
    rw [Page.addAll, List.foldl_cons, hs, ← Page.addAll, hrest, Page.write, linePieces_cons,
      List.append_assoc]

/-- Statements without a line break are their pieces, joined by spaces. -/
theorem render_line {ss : List Statement} (h : .newLine ∉ ss) :
    render ss = Text.joinWords (linePieces ss) := by
  rw [render, addAll_line ss .blank h]
  exact Text.joinLines_singleton _

/-- The text of statements, a line break and more statements is the two texts with a line break
between them. -/
theorem render_append_newLine (ss ss' : List Statement) :
    render (ss ++ .newLine :: ss') = render ss ++ char '\n' :: render ss' := by
  -- behind the line break the page is a blank one below finished lines
  have hpage : Page.blank.addAll (ss ++ .newLine :: ss') =
      (Page.blank.addAll ss').below (Page.blank.addAll ss).endLine.lines := by
    rw [Page.addAll_append, ← Page.addAll_below]
    simp [Page.addAll, Page.add, Page.below, Page.blank, Page.endLine]
  rw [render, hpage, Page.below, Page.text, Page.endLine, List.append_assoc, Text.joinLines_append]
  · rw [render, render, Page.text, Page.text]
  · simp
  · simp

/-- The text of statements is cut at the line breaks among them: what stands between two of them is
its pieces, joined by spaces. -/
theorem render_by_line (ss : List Statement) :
    render ss = Text.joinLines ((ss.splitOn .newLine).map fun line =>
      Text.joinWords (linePieces line)) := by
  by_cases h : .newLine ∈ ss
  · obtain ⟨line, rest, hss, hline⟩ := List.eq_append_cons_of_mem h
    -- the first line is cut off, and the rest is shorter
    have hlen : rest.length < ss.length := by
      rw [hss, List.length_append, List.length_cons]
      omega
    obtain ⟨next, lines, hlines⟩ := List.exists_cons_of_ne_nil (List.splitOn_ne_nil .newLine rest)
    have hrest := render_by_line rest
    rw [hlines, List.map_cons] at hrest
    rw [hss, render_append_newLine, List.splitOn_append_cons_self_of_not_mem hline, hlines,
      List.map_cons, List.map_cons, Text.joinLines_cons_cons, render_line hline, hrest]
  · rw [render_line h, List.splitOn_eq_singleton h, List.map_singleton, Text.joinLines_singleton]
  termination_by ss.length

/-- A renderer with a blank page writes the text of statements in normal form. -/
theorem render_statements (ss : List Statement) :
    Page.blank.render (ss.map .statement) = (.ok (render ss), Page.blank.addAll ss) :=
  Page.render_map_statement .blank ss

end Script

end BatchScript
