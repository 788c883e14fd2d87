import BatchScript.Proofs.Page.Pieces
import BatchScript.Proofs.Token.LineBreak
import BatchScript.Proofs.Token.Written

/-!
# Assignments are read back

A written assignment is scanned into words at its lone plain spaces, and the words joined again are
the two operands in their layers of quotes, with an equals sign between them. Reading cuts there,
takes the layers away and has the name and the value.

> `bare_escape`: the words of an escaped text, joined, are the text;
> `ofText_render_set`: an assignment that can be read at all is read back from its written form, and
> every assignment that is read is of this sort.
-/

namespace BatchScript

namespace Operand

/-! ## One word of an escaped text -/

/-- A character that needs no caret and is no white space stands for itself in a word. -/
theorem isPlain_of_not_special {c : CodePoint} (hspecial : isSpecial c = false)
    (hspace : Text.isSpace c = false) : Token.Word.isPlain c = true ∧ c ≠ '"' := by
  simp only [isSpecial, Bool.or_eq_false_iff, beq_eq_false_iff_ne] at hspecial
  obtain ⟨⟨⟨⟨⟨hlt, hgt⟩, hpipe⟩, hamp⟩, hcaret⟩, hquote⟩ := hspecial
  have hline : c ≠ '\n' := by
    rintro rfl
    cases hspace
  have hblank : Text.isBlank c = false := by
    cases hb : Text.isBlank c with
    | false => rfl
    | true =>
      rw [Text.isSpace_of_isBlank hb] at hspace
      cases hspace
  refine ⟨?_, hquote⟩
  simp [Token.Word.isPlain, Token.isOperatorChar, hline, hblank, hlt, hgt, hpipe, hamp, hcaret]

/-- The word at the front of an escaped text: all of it, or what stands before the first lone
space. -/
theorem read_escape {tail : Text} (htail : Text.BehindPiece tail) (t : Text) :
    ∀ afterSpace : Bool, char '\n' ∉ t →
      ((Token.Word.read false (escape afterSpace t ++ tail)).value = t ∧
        (Token.Word.read false (escape afterSpace t ++ tail)).rest = tail) ∨
      ∃ word later, t = word ++ char ' ' :: later ∧ startsWithSpace later = false ∧
        (Token.Word.read false (escape afterSpace t ++ tail)).value = word ∧
        (Token.Word.read false (escape afterSpace t ++ tail)).rest =
          char ' ' :: (escape false later ++ tail) := by
  induction t with
  | nil =>
    intro afterSpace _
    rcases htail.cases with rfl | ⟨u, rfl⟩
    · exact Or.inl ⟨rfl, rfl⟩
    · have hread := Token.Word.read_end (c := ' ') (by decide) u
      exact Or.inl ⟨congrArg Token.Word.value hread, congrArg Token.Word.rest hread⟩
  | cons c cs ih =>
    intro afterSpace hline
    rw [List.mem_cons, not_or] at hline
    -- a character that joins the word that is read behind it, escaped or not
    have hjoin : ∀ (after : Bool) (w : Token.Word), w.value =
          c :: (Token.Word.read false (escape after cs ++ tail)).value →
        w.rest = (Token.Word.read false (escape after cs ++ tail)).rest →
        (w.value = c :: cs ∧ w.rest = tail) ∨
          ∃ word later, c :: cs = word ++ char ' ' :: later ∧ startsWithSpace later = false ∧
            w.value = word ∧ w.rest = char ' ' :: (escape false later ++ tail) := by
      intro after w hvalue hrest
      rw [hvalue, hrest]
      rcases ih after hline.2 with ⟨hv, hr⟩ | ⟨word, later, hcs, hlater, hv, hr⟩
      · exact Or.inl ⟨by rw [hv], hr⟩
      · exact Or.inr ⟨c :: word, later, by rw [hcs]; rfl, hlater, by rw [hv], hr⟩
    have hescaped : ∀ after : Bool, escape afterSpace (c :: cs) = char '^' :: c :: escape after cs →
        Token.Word.read false (escape afterSpace (c :: cs) ++ tail) =
          .pushEscaped c (Token.Word.read false (escape after cs ++ tail)) := by
      intro after h
      rw [h]
      exact Token.Word.read_caret (Ne.symm hline.1) _
    cases hspecial : isSpecial c with
    | true =>
      have hread := hescaped false (escape_special hspecial afterSpace cs)
      rw [hread]
      exact hjoin false _ rfl rfl
    | false =>
      cases hspace : Text.isSpace c with
      | true =>
        rcases escape_space hspace hspecial afterSpace cs with h | ⟨h, rfl, -, hcs⟩
        · rw [hescaped true h]
          exact hjoin true _ rfl rfl
        · -- a lone plain space, which ends the word
          right
          rw [h, escape_of_not_startsWithSpace hcs, List.cons_append,
            Token.Word.read_end (by decide)]
          exact ⟨[], cs, rfl, hcs, rfl, rfl⟩
      | false =>
        obtain ⟨hplain, hquote⟩ := isPlain_of_not_special hspecial hspace
        have hopen : (c == '"') = false := by simpa using hquote
        rw [escape_plain hspace hspecial, List.cons_append, Token.Word.read_plain hplain, hopen]
        exact hjoin false _ rfl rfl

/-- An escaped text has no operator character at its front. -/
theorem not_isOperatorChar_escape {t tail : Text} (htail : Text.BehindPiece tail)
    (afterSpace : Bool) {c : CodePoint} (h : (escape afterSpace t ++ tail).head? = some c) :
    Token.isOperatorChar c = false := by
  cases t with
  | nil =>
    rw [htail c h]
    decide
  | cons d ds =>
    cases hspecial : isSpecial d with
    | true =>
      rw [escape_special hspecial] at h
      cases h
      decide
    | false =>
      cases hspace : Text.isSpace d with
      | true =>
        -- white space is written with a caret or as itself, and neither is an operator
        rcases escape_space hspace hspecial afterSpace ds with h' | ⟨h', -⟩
        all_goals
          rw [h'] at h
          cases h
          decide
      | false =>
        rw [escape_plain hspace hspecial] at h
        cases h
        exact (Token.not_isOperatorChar_of_isPlain (isPlain_of_not_special hspecial hspace).1).1

/-! ## All words of an escaped text -/

/-- A text with no white space at its ends, which is not empty and stands on one line. -/
structure Tight (t : Text) : Prop where
  ne_nil : t ≠ []
  line : char '\n' ∉ t
  first : ∀ c, t.head? = some c → Text.isSpace c = false
  last : ∀ c, t.getLast? = some c → Text.isSpace c = false

/-- The front of an escaped text is no blank and no operator. -/
theorem Tight.escape_eq_cons {t tail : Text} (h : Tight t) (htail : Text.BehindPiece tail)
    (m : Token.Mode) (hm : m.atHead = false) :
    ∃ c cs, escape false t ++ tail = c :: cs ∧ Token.StartsLexeme m c ∧
      Token.isOperatorChar c = false ∧ (c = '2' → cs.head? ≠ some (char '>')) := by
  obtain ⟨d, ds, rfl⟩ := List.exists_cons_of_ne_nil h.ne_nil
  have hhead : ∀ c : CodePoint, ¬(c = '@' ∧ m.atHead = true) := fun c hc => by simp [hm] at hc
  have hspace : Text.isSpace d = false := h.first d rfl
  cases hspecial : isSpecial d with
  | true =>
    rw [escape_special hspecial]
    refine ⟨'^', d :: escape false ds ++ tail, rfl, ⟨by decide, by decide, hhead _⟩, by decide, ?_⟩
    intro hc
    cases hc
  | false =>
    have hplain := (isPlain_of_not_special hspecial hspace).1
    obtain ⟨hop, hblank, hline⟩ := Token.not_isOperatorChar_of_isPlain hplain
    rw [escape_plain hspace hspecial]
    refine ⟨d, escape false ds ++ tail, rfl, ⟨hblank, hline, hhead _⟩, hop, fun _ hgt => ?_⟩
    cases not_isOperatorChar_escape htail false hgt

/-- The words of an escaped text, joined, are the text. -/
theorem bare_escape {m : Token.Mode} (hm : m.atHead = false) (hr : m.afterRedirection = false)
    {tail : Text} (htail : Text.BehindPiece tail) (t : Text) (ht : Tight t) :
    ∃ words, words ≠ [] ∧ Text.joinWords words = t ∧
      Token.bare m (escape false t ++ tail) =
        words.map (fun v => Token.bareToken ⟨.word, v⟩ m) ++ Token.bare m tail := by
  obtain ⟨c, cs, hcs, hstart, hop, hsecond⟩ := ht.escape_eq_cons htail m hm
  have hword := read_escape htail t false ht.line
  rw [hcs] at hword ⊢
  rcases hword with ⟨hvalue, hrest⟩ | ⟨word, later, hcut, hlater, hvalue, hrest⟩
  · -- no lone space: the text is one word
    have hscan := Token.bare_of_read hm hr hstart hop hsecond (hvalue ▸ ht.ne_nil)
    rw [hvalue, hrest] at hscan
    exact ⟨[t], List.cons_ne_nil t [], Text.joinWords_singleton t, hscan⟩
  · -- the first lone space cuts the text in a word and a shorter tight text
    have hne : word ≠ [] := by
      rintro rfl
      rw [List.nil_append] at hcut
      cases ht.first ' ' (by rw [hcut]; rfl)
    have hlaterne : later ≠ [] := by
      rintro rfl
      cases ht.last ' ' (by rw [hcut, List.getLast?_append]; rfl)
    have hline := ht.line
    rw [hcut, List.mem_append, List.mem_cons, not_or, not_or] at hline
    have hlast : later.getLast? = t.getLast? := by
      rw [hcut, List.getLast?_append, List.getLast?_cons_of_ne_nil hlaterne,
        List.getLast?_eq_some_getLast hlaterne]
      rfl
    have htight : Tight later := by
      refine ⟨hlaterne, hline.2.2, fun d hd => ?_, fun d hd => ht.last d (hlast ▸ hd)⟩
      cases later with
      | nil => cases hd
      | cons e es =>
        cases hd
        exact hlater
    have hlength : later.length < t.length := by
      rw [hcut, List.length_append, List.length_cons]
      omega
    have hscan := Token.bare_of_read hm hr hstart hop hsecond (hvalue ▸ hne)
    obtain ⟨words, hwords, hjoin, hbare⟩ := bare_escape hm hr htail later htight
    rw [hvalue, hrest, Token.bare_space, hbare] at hscan
    refine ⟨word :: words, List.cons_ne_nil word words, ?_, hscan⟩
    obtain ⟨w, ws, rfl⟩ := List.exists_cons_of_ne_nil hwords
    rw [Text.joinWords_cons_cons, hjoin, hcut]
  termination_by t.length

end Operand

/-! ## Assignments -/

/-- An assignment that a script can hold: the parts of the name are words without an equals sign,
and the value stands on one line. -/
structure Assignment.Canonical (a : Assignment) : Prop where
  word : ∀ part ∈ a.name, Text.IsWord part
  equals : ∀ part ∈ a.name, char '=' ∉ part
  line : char '\n' ∉ a.value

namespace Assignment

/-- The name of an assignment that a script can hold, joined. -/
theorem Canonical.name_joined {a : Assignment} (h : a.Canonical) :
    char '\n' ∉ Text.joinWords a.name ∧ char '=' ∉ Text.joinWords a.name := by
  refine ⟨fun hmem => ?_, fun hmem => ?_⟩
  · rcases Text.mem_joinWords hmem with hc | ⟨part, hpart, hc⟩
    · cases hc
    · have hspace := (h.word part hpart).2 _ hc
      rw [Text.isSpace_newline.1] at hspace
      cases hspace
  · rcases Text.mem_joinWords hmem with hc | ⟨part, hpart, hc⟩
    · cases hc
    · exact h.equals part hpart hc

/-- The two operands in their layers of quotes, with the equals sign. -/
def wrapped (a : Assignment) : Text :=
  Operand.wrap (Text.joinWords a.name) ++ char '=' :: Operand.wrap a.value

/-- What is written for a canonical assignment has no white space at its ends. -/
theorem Canonical.tight {a : Assignment} (h : a.Canonical) : Operand.Tight a.wrapped := by
  have hwrap : ∀ t : Text, char '\n' ∉ t → char '\n' ∉ Operand.wrap t := by
    intro t ht hmem
    rcases Operand.mem_wrap hmem with hc | hc
    · exact ht hc
    · cases hc
  have hequals : Text.isSpace '=' = false := by decide
  refine ⟨by simp [wrapped], ?_, fun c hc => ?_, fun c hc => ?_⟩
  · simp [wrapped, hwrap _ h.name_joined.1, hwrap _ h.line]
  · -- an empty operand leaves the equals sign at that end
    cases hn : Operand.wrap (Text.joinWords a.name) with
    | nil =>
      rw [wrapped, hn] at hc
      cases hc
      exact hequals
    | cons d ds =>
      rw [wrapped, hn] at hc
      cases hc
      exact Operand.isSpace_ends_wrap (Or.inl (by rw [hn]; rfl))
  · rw [wrapped, List.getLast?_append] at hc
    cases hv : Operand.wrap a.value with
    | nil =>
      rw [hv] at hc
      cases hc
      exact hequals
    | cons d ds =>
      rw [hv, List.getLast?_cons_cons] at hc
      have hlast : (d :: ds).getLast? = some c := by
        rw [List.getLast?_eq_some_getLast (List.cons_ne_nil d ds)] at hc ⊢
        exact hc
      exact Operand.isSpace_ends_wrap (Or.inr (by rw [hv]; exact hlast))

/-- The operands are escaped as one text. -/
theorem escape_wrapped (a : Assignment) :
    Operand.write (Text.joinWords a.name) ++ char '=' :: Operand.write a.value =
      Operand.escape false a.wrapped :=
  (Operand.escape_append_equals _ _ false).symm

/-- Words that are joined to the two operands in their layers of quotes make the assignment. -/
theorem Canonical.madeOf {a : Assignment} (h : a.Canonical) (head : PlacedToken)
    {words : List PlacedToken} (hhead : head.kind = .set) (hwords : ∀ w ∈ words, w.isWord = true)
    (hjoin : Text.joinWords (words.map (·.value)) = a.wrapped) :
    (Statement.set a.name a.value head.invisible).MadeOf (head :: words) := by
  have hname : char '=' ∉ Operand.wrap (Text.joinWords a.name) := by
    intro hmem
    rcases Operand.mem_wrap hmem with hc | hc
    · exact h.name_joined.2 hc
    · cases hc
  have hmade := Statement.MadeOf.set hhead hwords hjoin hname
  rwa [Operand.side_wrap, Operand.side_wrap, Text.words_joinWords h.word] at hmade

/-- A written assignment is scanned as tokens that make it up. -/
theorem Canonical.bare_set {a : Assignment} (h : a.Canonical) {m : Token.Mode}
    (hm : m.atHead = true) (invisible : Bool) {tail : Text} (htail : Text.BehindPiece tail) :
    ∃ head words, head.kind = .set ∧
      (Statement.set a.name a.value (m.invisible || invisible)).MadeOf (head :: words) ∧
      Token.bare m (commandName "set".text invisible ++
          char ' ' :: (Operand.write (Text.joinWords a.name) ++
            char '=' :: Operand.write a.value ++ tail)) =
        head :: words ++ Token.bare ((m.hide invisible).behind .set) tail := by
  -- the keyword first, and then the two operands as one escaped text
  have hscan := Token.bare_commandName hm (show .set ∈ Token.Kind.keywords by decide)
    (Text.behindPiece_space (Operand.escape false a.wrapped ++ tail)) invisible
  obtain ⟨words, -, hjoin, hwords⟩ :=
    Operand.bare_escape (m := (m.hide invisible).behind .set) rfl rfl htail a.wrapped h.tight
  refine ⟨Token.bareToken ⟨.set, "set".text⟩ (m.hide invisible),
    words.map fun v => Token.bareToken ⟨.word, v⟩ ((m.hide invisible).behind .set), rfl, ?_, ?_⟩
  · apply h.madeOf (Token.bareToken ⟨.set, "set".text⟩ (m.hide invisible)) rfl
    · intro w hw
      obtain ⟨v, -, rfl⟩ := List.mem_map.1 hw
      rfl
    · rw [List.map_map, ← hjoin]
      congr 1
      exact List.map_id words
  · rw [escape_wrapped]
    rw [Token.bare_space, hwords] at hscan
    exact hscan

end Assignment

/-- The two sides of an assignment that is made of words within a line. -/
theorem Assignment.canonical_sides {words : List PlacedToken} {name value : Text}
    (hjoin : Text.joinWords (words.map (·.value)) = name ++ char '=' :: value)
    (hname : char '=' ∉ name) (hwords : ∀ w ∈ words, w.WithinLine) :
    (Assignment.mk (Text.words (side name)) (side value)).Canonical := by
  obtain ⟨-, hvalue⟩ := Statement.not_mem_sides hjoin hwords
  refine ⟨fun part hpart => (Text.mem_words hpart).1, fun part hpart hc => ?_, hvalue⟩
  exact hname (mem_side ((Text.mem_words hpart).2 _ hc))

namespace Script

/-- Every assignment of a script that is read is one that a script can hold. -/
theorem canonical_of_ofText {t : Text} {ss : List Statement} (h : ofText t = .ok ss)
    {name : List Text} {value : Text} {invisible : Bool} (hs : .set name value invisible ∈ ss) :
    (Assignment.mk name value).Canonical := by
  obtain ⟨taken, hmade, hmem⟩ := (read_eq_ok_iff.1 h).exists_tokens hs
  cases hmade with
  | @set head words name value _ hwords hjoin hname =>
    have hline : ∀ w ∈ words, w.WithinLine := by
      intro w hw
      exact Token.withinLine_of_isWord (hmem w (List.mem_cons_of_mem head hw)) (hwords w hw)
    exact Assignment.canonical_sides hjoin hname hline

/-- An assignment that a script can hold is read back from its written form. -/
theorem ofText_render_canonical {a : Assignment} (h : a.Canonical) (invisible : Bool) :
    ofText (render [.set a.name a.value invisible]) = .ok [.set a.name a.value invisible] := by
  obtain ⟨head, words, -, hmade, hscan⟩ :=
    h.bare_set (m := .start) rfl invisible Text.behindPiece_nil
  have hrender : render [.set a.name a.value invisible] = commandName "set".text invisible ++
      char ' ' :: (Operand.write (Text.joinWords a.name) ++
        char '=' :: Operand.write a.value ++ []) := by
    rw [render_line (by simp), List.append_nil]
    cases invisible <;> simp [linePieces, Statement.pieces, commandName, Text.joinWords]
  have hbare : MadeOf [.set a.name a.value invisible] (Token.bare .start
      (render [.set a.name a.value invisible])) := by
    rw [hrender, hscan, Token.bare_nil]
    exact .cons hmade (Statement.before_nil _) .nil
  obtain ⟨ss', hread, halike⟩ := exists_of_bare_madeOf hbare
  cases halike with
  | cons hs hrest =>
    cases hs
    cases hrest
    exact hread

/-- **Assignments are read back.** An assignment whose name is made of words without an equals sign,
and whose value stands on one line, is read back from its written form, hidden or not, whatever
quotes, carets, operators and white space it holds. And every assignment of a script that is read is
of this sort, so it is read back too. -/
theorem ofText_render_set :
    (∀ (a : Assignment) (invisible : Bool), a.Canonical →
      ofText (render [.set a.name a.value invisible]) = .ok [.set a.name a.value invisible]) ∧
    ∀ (t : Text) (ss : List Statement), ofText t = .ok ss →
      ∀ (name : List Text) (value : Text) (invisible : Bool), .set name value invisible ∈ ss →
        (Assignment.mk name value).Canonical ∧
          ofText (render [.set name value invisible]) = .ok [.set name value invisible] := by
  refine ⟨fun a invisible h => ofText_render_canonical h invisible, ?_⟩
  intro t ss h name value invisible hs
  have hcanonical := canonical_of_ofText h hs
  exact ⟨hcanonical, ofText_render_canonical hcanonical invisible⟩

/-- A name with a quote and a caret, with a value of an operator, spaces and a quote; and an
assignment behind a chain operator, cut in the middle of its quotes, with a value that ends with a
space. -/
theorem ofText_render_set_awkward :
    ofText (render [.set ["\"a".text, "b^".text] " > \"".text true]) =
        .ok [.set ["\"a".text, "b^".text] " > \"".text true] ∧
      ofText (render [.set ["p^q".text, "r".text] "^& ".text true]) =
        .ok [.set ["p^q".text, "r".text] "^& ".text true] := by
  have hfirst : (Assignment.mk ["\"a".text, "b^".text] " > \"".text).Canonical :=
    ⟨by decide +kernel, by decide +kernel, by decide +kernel⟩
  have hread : ofText "foo & @set \"p^q  r = ^& \"\nset x=".text =
      .ok [.command "foo".text, .andAlways, .set ["p^q".text, "r".text] "^& ".text true,
        .newLine, .set ["x".text] [] false] := by decide +kernel
  have hmem : Statement.set ["p^q".text, "r".text] "^& ".text true ∈
      [.command "foo".text, .andAlways, .set ["p^q".text, "r".text] "^& ".text true,
        .newLine, .set ["x".text] [] false] :=
    List.mem_cons_of_mem _ (List.mem_cons_of_mem _ List.mem_cons_self)
  have hset := ofText_render_set.1 _ true hfirst
  have hset' := (ofText_render_set.2 _ _ hread _ _ _ hmem).2
  exact ⟨hset, hset'⟩

end Script

end BatchScript
