import BatchScript.Proofs.Page.Pieces
import BatchScript.Proofs.Script.Boundary
import BatchScript.Proofs.Text.Lines
import BatchScript.Proofs.Token.LineBreak

/-!
# A script is put in normal form line by line

`normalise` reads a text as a script and writes it again. A line break cuts the tokens, the
statements and the page at one place, so a text is as good as its lines: the normal form of a line
does not depend on the lines around it, and the first line that cannot be read decides the error.

> `ofText_append_newLine_of_ok`, `ofText_append_newLine_of_error`: the line and the text behind it
> are read in turn;
> `normalise_by_line`: the normal form is made of those of the lines.
-/

namespace BatchScript

/-- The error some lines further down. -/
def SyntaxError.down (e : SyntaxError) (lines : Int) : SyntaxError :=
  { e with line := e.line.map (· + lines) }

theorem SyntaxError.down_down (e : SyntaxError) (m n : Int) :
    (e.down m).down n = e.down (m + n) := by
  obtain ⟨note, line, column⟩ := e
  cases line with
  | none => rfl
  | some l => simp [down, Int.add_assoc]

/-- No reading can tell a token from the same one some lines further down. -/
theorem PlacedToken.readAlike_down {lines : Int} (t u : PlacedToken) (h : u = t.down lines) :
    t.ReadAlike u := by
  rw [h]
  exact ⟨rfl, fun _ => rfl, fun _ => rfl⟩

namespace Script

/-- A text read as a script and written again in normal form. -/
def normalise (t : Text) : Except SyntaxError Text :=
  (ofText t).map render

/-! ## Further down -/

/-- Further down the same statements are read, with tokens further down. -/
theorem read_down_of_ok {ts : List PlacedToken} {ss : List Statement} (lines : Int)
    (h : (read ts).result = .ok ss) :
    ∃ ss', (read (ts.map (·.down lines))).result = .ok ss' ∧
      List.Forall₂ (Statement.Alike fun t u => u = t.down lines) ss ss' := by
  have hagree := read_alike PlacedToken.readAlike_down _ _ (forall₂_map_self (·.down lines) ts)
  obtain ⟨ss', hss, hread⟩ := hagree.exists_of_ok h
  exact ⟨ss', hread, hss⟩

/-- Further down the same error is met further down. -/
theorem read_down_of_error {ts : List PlacedToken} {e : SyntaxError} (lines : Int)
    (h : (read ts).result = .error e) :
    (read (ts.map (·.down lines))).result = .error (e.down lines) := by
  have hagree := read_alike PlacedToken.readAlike_down _ _ (forall₂_map_self (·.down lines) ts)
  obtain ⟨t, u, rfl, rfl, hread⟩ := hagree.exists_of_error h
  exact hread

/-! ## A line break between two texts -/

/-- An error in front of a line break is the error of the whole. -/
theorem ofText_append_newLine_of_error {a : Text} {e : SyntaxError} (b : Text)
    (ha : ofText a = .error e) : ofText (a ++ char '\n' :: b) = .error e := by
  obtain ⟨newLine, hk, htokens⟩ := Token.ofText_append_newLine a b
  rw [ofText, htokens, read_append_of_error _ (boundary_newLine _ _ hk) ha]
  exact ha

/-- Behind a line break the reading starts afresh, further down. -/
theorem ofText_append_newLine_of_ok {a : Text} {ss : List Statement} (b : Text)
    (ha : ofText a = .ok ss) :
    ofText (a ++ char '\n' :: b) =
      (read ((Token.ofText b).map (·.down (a.count (char '\n') + 1)))).result.map
        (ss ++ .newLine :: ·) := by
  obtain ⟨newLine, hk, htokens⟩ := Token.ofText_append_newLine a b
  have hfirst : ∀ ts : List PlacedToken, (Statement.read newLine ts).result = .ok .newLine ∧
      (Statement.read newLine ts).rest = ts := by
    intro ts
    simp [Statement.read, hk, Reading.done]
  rw [ofText, htokens, read_append_of_ok _ (boundary_newLine _ _ hk) ha]
  show (read (newLine :: _)).result.map _ = _
  rw [read_cons_of_ok (hfirst _).1, (hfirst _).2]
  cases (read ((Token.ofText b).map (·.down (a.count (char '\n') + 1)))).result <;> rfl

/-- The statements of a line and of the text behind it are those of the two texts, with the line
break between them. -/
theorem ofText_append_newLine {a b : Text} {ss ss' : List Statement} (ha : ofText a = .ok ss)
    (hb : ofText b = .ok ss') :
    ∃ below, ofText (a ++ char '\n' :: b) = .ok (ss ++ .newLine :: below) ∧
      List.Forall₂ (Statement.Alike fun t u => u = t.down (a.count (char '\n') + 1)) ss' below := by
  obtain ⟨below, hbelow, halike⟩ := read_down_of_ok (a.count (char '\n') + 1) hb
  refine ⟨below, ?_, halike⟩
  rw [ofText_append_newLine_of_ok b ha, hbelow]
  rfl

/-- A text with a normal form is a script, and its normal form is how the script is written. -/
theorem normalise_eq_ok {t out : Text} (h : normalise t = .ok out) :
    ∃ ss, ofText t = .ok ss ∧ render ss = out := by
  rw [normalise] at h
  cases hss : ofText t with
  | error e =>
    rw [hss] at h
    cases h
  | ok ss =>
    rw [hss] at h
    cases h
    exact ⟨ss, rfl, rfl⟩

/-- A text has no normal form exactly when its script has an error. -/
theorem normalise_eq_error {t : Text} {e : SyntaxError} :
    normalise t = .error e ↔ ofText t = .error e := by
  rw [normalise]
  cases ofText t <;> simp [Except.map]

/-- An error in front of a line break is the error of the whole. -/
theorem normalise_append_newLine_of_error {a : Text} {e : SyntaxError} (b : Text)
    (ha : normalise a = .error e) : normalise (a ++ char '\n' :: b) = .error e :=
  normalise_eq_error.2 (ofText_append_newLine_of_error b (normalise_eq_error.1 ha))

/-- Two texts in normal form with a line break between them. -/
theorem normalise_append_newLine {a b x y : Text} (ha : normalise a = .ok x)
    (hb : normalise b = .ok y) : normalise (a ++ char '\n' :: b) = .ok (x ++ char '\n' :: y) := by
  obtain ⟨ss, hss, rfl⟩ := normalise_eq_ok ha
  obtain ⟨ss', hss', rfl⟩ := normalise_eq_ok hb
  obtain ⟨below, hbelow, halike⟩ := ofText_append_newLine hss hss'
  have hspelling : ∀ t u : PlacedToken,
      u = t.down (a.count (char '\n') + 1) → t.spelling = u.spelling :=
    fun t u hu => by rw [hu]; rfl
  rw [normalise, hbelow]
  show Except.ok _ = _
  rw [render_append_newLine, render_alike hspelling halike]

/-- An error behind a line break is the error of the second text, further down. -/
theorem normalise_append_newLine_of_ok_of_error {a b x : Text} {e : SyntaxError}
    (ha : normalise a = .ok x) (hb : normalise b = .error e) :
    normalise (a ++ char '\n' :: b) = .error (e.down (a.count (char '\n') + 1)) := by
  obtain ⟨ss, hss, rfl⟩ := normalise_eq_ok ha
  rw [normalise_eq_error, ofText_append_newLine_of_ok b hss,
    read_down_of_error _ (normalise_eq_error.1 hb)]
  rfl

/-! ## One line -/

/-- The normal form of a line is a line. -/
theorem not_mem_normalise {l out : Text} (hl : char '\n' ∉ l) (h : normalise l = .ok out) :
    char '\n' ∉ out := by
  obtain ⟨ss, hss, rfl⟩ := normalise_eq_ok h
  exact (render_within_line (read_eq_ok_iff.1 hss) fun t ht =>
    (Token.ofText_within_line hl t ht).1).2

/-- The error of a line by itself is on the first line. -/
theorem error_of_line {l : Text} {e : SyntaxError} (hl : char '\n' ∉ l)
    (h : normalise l = .error e) : e = .invalidAssignment (some 1) e.column := by
  have hread : (read (Token.ofText l)).result = .error e := normalise_eq_error.1 h
  -- the tokens are related to themselves, and the relation keeps their line
  have hself : List.Forall₂ (fun t u : PlacedToken => t = u ∧ t.line = 1) (Token.ofText l)
      (Token.ofText l) := by
    rw [List.forall₂_same]
    exact fun t ht => ⟨rfl, (Token.ofText_within_line hl t ht).2⟩
  have halike : ∀ t u : PlacedToken, t = u ∧ t.line = 1 → t.ReadAlike u := by
    rintro t u ⟨rfl, -⟩
    exact ⟨rfl, fun _ => rfl, fun _ => rfl⟩
  obtain ⟨t, u, ⟨-, hline⟩, rfl, -⟩ := (read_alike halike _ _ hself).exists_of_error hread
  rw [hline]
  rfl

/-! ## All lines -/

theorem count_newLine_of_not_mem {l : Text} (hl : char '\n' ∉ l) :
    (l.count (char '\n') : Int) + 1 = 1 := by
  rw [List.count_eq_zero_of_not_mem hl]
  rfl

/-- Lines that can all be read are put in normal form one by one. -/
theorem normalise_joinLines {ls outs : List Text}
    (h : List.Forall₂ (fun l out => normalise l = .ok out) ls outs) (hne : ls ≠ []) :
    normalise (Text.joinLines ls) = .ok (Text.joinLines outs) := by
  induction h with
  | nil => exact absurd rfl hne
  | @cons l out ls outs hl hrest ih =>
    cases hrest with
    | nil =>
      rw [Text.joinLines_singleton, Text.joinLines_singleton]
      exact hl
    | cons hl' hrest =>
      rw [Text.joinLines_cons_cons, Text.joinLines_cons_cons]
      exact normalise_append_newLine hl (ih (List.cons_ne_nil _ _))

/-- The first line that cannot be read decides the error. -/
theorem normalise_joinLines_of_error {l : Text} {e : SyntaxError} (after : List Text)
    (he : normalise l = .error e) : ∀ {before : List Text},
      (∀ b ∈ before, char '\n' ∉ b ∧ ∃ out, normalise b = .ok out) →
      normalise (Text.joinLines (before ++ l :: after)) = .error (e.down before.length)
  | [], _ => by
    have hdown : e.down (([] : List Text).length : Int) = e := by
      obtain ⟨note, line, column⟩ := e
      cases line with
      | none => rfl
      | some n => simp [SyntaxError.down]
    rw [hdown]
    cases after with
    | nil =>
      rw [List.nil_append, Text.joinLines_singleton]
      exact he
    | cons l' after =>
      rw [List.nil_append, Text.joinLines_cons_cons]
      exact normalise_append_newLine_of_error _ he
  | b :: before, hbefore => by
    obtain ⟨hline, out, hout⟩ := hbefore b List.mem_cons_self
    have hrest := normalise_joinLines_of_error after he fun b' hb' =>
      hbefore b' (List.mem_cons_of_mem b hb')
    -- one line is taken off the front, and the error moves down by one line
    have hjoin : Text.joinLines (b :: before ++ l :: after) =
        b ++ char '\n' :: Text.joinLines (before ++ l :: after) := by
      cases before <;> exact Text.joinLines_cons_cons _ _ _
    rw [hjoin, normalise_append_newLine_of_ok_of_error hout hrest, SyntaxError.down_down,
      count_newLine_of_not_mem hline]
    rfl

/-- Lines that each have a normal form have one line by line. -/
theorem forall₂_of_forall_exists {ls : List Text}
    (h : ∀ l ∈ ls, ∃ out, normalise l = .ok out) :
    ∃ outs, List.Forall₂ (fun l out => normalise l = .ok out) ls outs := by
  induction ls with
  | nil => exact ⟨[], .nil⟩
  | cons l ls ih =>
    obtain ⟨out, hout⟩ := h l List.mem_cons_self
    obtain ⟨outs, houts⟩ := ih fun l' hl' => h l' (List.mem_cons_of_mem l hl')
    exact ⟨out :: outs, .cons hout houts⟩

/-- The normal form of a line is a line. -/
theorem forall₂_not_mem {ls outs : List Text}
    (h : List.Forall₂ (fun l out => normalise l = .ok out) ls outs)
    (hls : ∀ l ∈ ls, char '\n' ∉ l) : ∀ out ∈ outs, char '\n' ∉ out := by
  induction h with
  | nil => simp
  | @cons l out ls outs hl _ ih =>
    intro out' hout'
    rcases List.mem_cons.1 hout' with rfl | hout'
    · exact not_mem_normalise (hls l List.mem_cons_self) hl
    · exact ih (fun l' hl' => hls l' (List.mem_cons_of_mem l hl')) out' hout'

/-- **The normal form of a script is made line by line.** If every line can be read, the normal form
has as many lines as the script, and each of them is the normal form of the line in its place. If
not, the first line that cannot be read decides the error, in the column where it has its error by
itself. -/
theorem normalise_by_line (source : Text) :
    ((∀ l ∈ source.splitOn (char '\n'), ∃ out, normalise l = .ok out) →
      ∃ outs, List.Forall₂ (fun l out => normalise l = .ok out) (source.splitOn (char '\n')) outs ∧
        normalise source = .ok (Text.joinLines outs) ∧
        (Text.joinLines outs).splitOn (char '\n') = outs ∧
        (Text.joinLines outs).count (char '\n') = source.count (char '\n')) ∧
    ∀ before l after e, source.splitOn (char '\n') = before ++ l :: after →
      (∀ b ∈ before, ∃ out, normalise b = .ok out) → normalise l = .error e →
      normalise source = .error (.invalidAssignment (some (before.length + 1)) e.column) := by
  obtain ⟨hlines, hlength⟩ := Text.lines_spec source
  have hsource := Text.joinLines_splitOn source
  refine ⟨fun hall => ?_, ?_⟩
  · obtain ⟨outs, houts⟩ := forall₂_of_forall_exists hall
    have hne := List.splitOn_ne_nil (char '\n') source
    have hout := normalise_joinLines houts hne
    rw [hsource] at hout
    -- the normal form of a line is a line, so what is joined can be cut again
    have hsplit : (Text.joinLines outs).splitOn (char '\n') = outs := by
      apply List.splitOn_intercalate (char '\n') (forall₂_not_mem houts hlines)
      rintro rfl
      exact hne (List.forall₂_nil_right_iff.1 houts)
    refine ⟨outs, houts, hout, hsplit, ?_⟩
    have hcount := (Text.lines_spec (Text.joinLines outs)).2
    rw [hsplit, ← houts.length_eq, hlength] at hcount
    omega
  · intro before l after e hcut hbefore he
    have hmem : ∀ l' ∈ before ++ l :: after, char '\n' ∉ l' := hcut ▸ hlines
    have herror := normalise_joinLines_of_error after he fun b hb =>
      ⟨hmem b (List.mem_append_left _ hb), hbefore b hb⟩
    rw [← hcut, hsource] at herror
    have hfirst := error_of_line (hmem l (by simp)) he
    have hdown : e.down before.length = .invalidAssignment (some (before.length + 1)) e.column :=
      calc e.down before.length
        _ = (SyntaxError.invalidAssignment (some 1) e.column).down before.length := by rw [← hfirst]
        _ = .invalidAssignment (some (1 + before.length)) e.column := rfl
        _ = .invalidAssignment (some (before.length + 1)) e.column := by rw [Int.add_comm]
    rw [herror, hdown]

/-- A quote left open on the first line does not reach the second one, and an assignment without an
equals sign on the second of three lines is the error of the whole. -/
theorem normalise_two_and_three_lines :
    (∃ outs, List.Forall₂ (fun l out => normalise l = .ok out)
        ("echo \"a>b\n::x>y".text.splitOn (char '\n')) outs ∧
      normalise "echo \"a>b\n::x>y".text = .ok (Text.joinLines outs) ∧
      (Text.joinLines outs).splitOn (char '\n') = outs ∧
      (Text.joinLines outs).count (char '\n') = "echo \"a>b\n::x>y".text.count (char '\n')) ∧
    normalise "echo ^\n @set b\nset".text = .error (.invalidAssignment (some 2) (some 3)) := by
  have hcut : "echo \"a>b\n::x>y".text.splitOn (char '\n') =
      ["echo \"a>b".text, "::x>y".text] := by decide +kernel
  have hfirst : normalise "echo \"a>b".text = .ok "echo \"a>b".text := by decide +kernel
  have hsecond : normalise "::x>y".text = .ok "rem x > y".text := by decide +kernel
  have hcut' : "echo ^\n @set b\nset".text.splitOn (char '\n') =
      ["echo ^".text] ++ " @set b".text :: ["set".text] := by decide +kernel
  have hbefore : normalise "echo ^".text = .ok "echo".text := by decide +kernel
  have herror : normalise " @set b".text = .error (.invalidAssignment (some 1) (some 3)) := by
    decide +kernel
  refine ⟨(normalise_by_line _).1 ?_, (normalise_by_line _).2 _ _ _ _ hcut' ?_ herror⟩
  · rw [hcut]
    exact List.forall_mem_cons.2 ⟨⟨_, hfirst⟩, List.forall_mem_singleton.2 ⟨_, hsecond⟩⟩
  · exact List.forall_mem_singleton.2 ⟨_, hbefore⟩

end Script

end BatchScript
