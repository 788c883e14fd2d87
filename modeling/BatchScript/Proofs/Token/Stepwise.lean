import BatchScript.Proofs.Token.Characters
import BatchScript.Proofs.Token.Lexer

/-!
# Lexing character by character

A scanner takes its tokens from a list of characters. Here a lexer takes them through its cursor: it
looks at the next character, or at the next two, and takes one after the other. One pass skips
blanks and comes to the end, to a token, or to an `@` or a caret behind which another pass begins. A
pass of the last sort leaves less of the source, so the passes end.

> `popToken_eq_next`: character by character a lexer takes the token that `next` takes, from any
> position, at any place and in any mode;
> `popToken_eq_error_iff`: so no character is taken past the end of the source;
> `skipBlanks_eq_popBlanks`, `operator_eq_popOperator`, `word_eq_popWord`: the parts of a call.
-/

namespace BatchScript

namespace Token

namespace Lexer

/-- The first operator of the table that the characters at the cursor start with. -/
def popOperator (l : Lexer) : Except Cursor.Fault (Option Token × Lexer) :=
  match Kind.operators.find? (·.fixedText.isPrefixOf ([0, 1, 2].filterMap l.cursor.peek)) with
  | none => .ok (none, l)
  | some kind => do
    let c ← l.cursor.advance kind.fixedText.length
    return (some (.ofKind kind), ⟨c, l.mode⟩)

/-- A label mark, or with another colon behind it a comment mark. -/
def popMark (l : Lexer) : Except Cursor.Fault (Token × Lexer) := do
  let (_, l₁) ← l.advance
  if l₁.cursor.peek 0 == some (char ':') then
    let (_, l₂) ← l₁.advance
    return (⟨.rem, [':', ':']⟩, ⟨l₂.cursor, { l.mode with atHead := false, inComment := true }⟩)
  else return (⟨.label, [':']⟩, ⟨l₁.cursor, { l.mode with atHead := false }⟩)

/-- The name of a handle, which is a bare word. -/
def popHandle (l : Lexer) : Except Cursor.Fault (Token × Lexer) := do
  let (_, l₁) ← l.advance
  let (word, c) ← l₁.cursor.popWord false
  return (⟨.word, char '&' :: word⟩, ⟨c, { l.mode with afterRedirection := false }⟩)

/-- A bare word or a keyword, unless the word is empty. -/
def popKeyword (l : Lexer) : Except Cursor.Fault (Option Token × Lexer) := do
  let (word, c) ← l.cursor.popWord false
  if word.isEmpty then return (none, ⟨c, l.mode⟩)
  else
    let kind := if l.mode.atHead then (Kind.keyword? word).getD .word else .word
    return (some ⟨kind, word⟩,
      ⟨c, { l.mode with atHead := false, inComment := l.mode.inComment || kind == .rem,
                        afterRedirection := false }⟩)

/-- The token where one may start, unless what stands there is an empty word. -/
def popLexeme (l : Lexer) : Except Cursor.Fault (Option Token × Lexer) :=
  if l.mode.atHead && l.cursor.peek 0 == some (char ':') then
    l.popMark.map fun (t, l') => (some t, l')
  else if l.mode.afterRedirection && l.cursor.peek 0 == some (char '&') &&
      (l.cursor.peek 1).any Text.isDigit then
    l.popHandle.map fun (t, l') => (some t, l')
  else if (l.cursor.peek 0).all isOperatorChar ||
      (l.cursor.peek 0 == some (char '2') && l.cursor.peek 1 == some (char '>')) then do
    match ← l.popOperator with
    | (some t, l') =>
      return (some t, ⟨l'.cursor, { l.mode with
        atHead := t.kind.isChain && !l.mode.inComment,
        afterRedirection := t.kind.redirection?.isSome }⟩)
    | (none, l') => l'.popKeyword
  else l.popKeyword

/-- What one pass of a lexer comes to. -/
inductive Pass where
  /-- The answer of the call. -/
  | answer (token : Option PlacedToken) (l : Lexer)
  /-- Another pass. -/
  | again (l : Lexer)

/-- What a lexer comes to where no blank stands. -/
def passBehindBlanks (l : Lexer) : Except Cursor.Fault Pass :=
  if l.cursor.atEnd then .ok (.answer none l)
  else if l.cursor.peek 0 == some (char '\n') then do
    let (_, l') ← l.advance
    return .answer (some (placed (.ofKind .newLine) l.mode l.cursor.place)) ⟨l'.cursor, .start⟩
  else if l.mode.atHead && l.cursor.peek 0 == some (char '@') then do
    let (_, l') ← l.advance
    return .again ⟨l'.cursor, { l.mode with invisible := true }⟩
  else do
    match ← l.popLexeme with
    | (some t, l') => return .answer (some (placed t l.mode l.cursor.place)) l'
    | (none, l') => return .again l'

/-- One pass of a lexer. -/
def pass (l : Lexer) : Except Cursor.Fault Pass := do
  let c ← l.cursor.popBlanks
  passBehindBlanks ⟨c, l.mode⟩

/-! ## The parts of a call -/

section

variable {l : Lexer} (hpos : 0 ≤ l.cursor.position)

include hpos

/-- Taken character by character, the operator is the one at the front of the rest. -/
theorem popOperator_of_nonneg : l.popOperator = .ok (match operator? l.cursor.rest with
    | none => (none, l)
    | some (kind, _) => (some (.ofKind kind), ⟨l.cursor.behind kind.fixedText, l.mode⟩)) := by
  -- up to three characters, fewer near the end
  have hahead : [0, 1, 2].filterMap l.cursor.peek = l.cursor.rest.take 3 := by
    have htwo : l.cursor.peek 2 = l.cursor.rest[2]? := Cursor.peek_eq hpos 2
    rcases hrest : l.cursor.rest with _ | ⟨a, _ | ⟨b, _ | ⟨c, cs⟩⟩⟩ <;>
      simp [Cursor.peek_zero hpos, Cursor.peek_one hpos, htwo, hrest]
  rw [popOperator, hahead, find?_operators_take]
  cases hop : operator? l.cursor.rest with
  | none => rfl
  | some found =>
    obtain ⟨kind, rest⟩ := found
    obtain ⟨-, happ, -⟩ := operator?_eq_some_iff.1 hop
    simp only [Option.map_some, Cursor.advance_of_rest kind.fixedText hpos happ]
    rfl

variable {ch : CodePoint} {cs : Text}

/-- Taken character by character, a mark is the one at the front of the rest. -/
theorem popMark_of_nonneg (h : l.cursor.rest = char ':' :: cs) :
    ∃ x, Lexeme.mark? l.mode l.cursor.rest = some x ∧
      l.popMark = .ok (x.token, ⟨l.cursor.behind x.raw, x.mode⟩) := by
  have hadvance : l.advance = .ok (char ':', ⟨l.cursor.behind [char ':'], l.mode⟩) := by
    rw [advance, Cursor.next_of_rest hpos h]
    rfl
  have hpos' := Cursor.nonneg_behind hpos [char ':']
  have hrest : (l.cursor.behind [char ':']).rest = cs := Cursor.rest_behind hpos h
  rw [popMark, hadvance, h]
  simp only [bind, Except.bind, Cursor.peek_zero hpos', hrest]
  -- the second colon is looked at before it is taken
  by_cases hcs : cs.head? = some (char ':')
  · obtain ⟨ds, rfl⟩ := List.head?_eq_some_iff.1 hcs
    refine ⟨_, rfl, ?_⟩
    simp only [advance, Cursor.next_of_rest hpos' hrest, ← Cursor.behind_append]
    rfl
  · have hmark : Lexeme.mark? l.mode (char ':' :: cs) =
        some ⟨⟨.label, [':']⟩, [':'], cs, { l.mode with atHead := false }⟩ := by
      cases cs with
      | nil => rfl
      | cons d ds =>
        have hd : d ≠ ':' := fun hd => hcs (by rw [hd]; rfl)
        simp [Lexeme.mark?, hd]
    refine ⟨_, hmark, ?_⟩
    rw [beq_eq_false_iff_ne.2 hcs]
    rfl

/-- Taken character by character, a handle is the one at the front of the rest. -/
theorem popHandle_of_nonneg {d : CodePoint} (h : l.cursor.rest = char '&' :: d :: cs)
    (hd : Text.isDigit d = true) :
    ∃ x, Lexeme.handle? l.mode l.cursor.rest = some x ∧
      l.popHandle = .ok (x.token, ⟨l.cursor.behind x.raw, x.mode⟩) := by
  have hpos' := Cursor.nonneg_behind hpos [char '&']
  have hrest : (l.cursor.behind [char '&']).rest = d :: cs := Cursor.rest_behind hpos h
  rw [h, Lexeme.handle?, if_pos hd]
  refine ⟨_, rfl, ?_⟩
  simp only [popHandle, advance, bind, Except.bind, Cursor.next_of_rest hpos h, pure, Except.pure,
    Cursor.popWord_of_nonneg false _ hpos' hrest, ← Cursor.behind_append]
  rfl

/-- Taken character by character, a word is the one at the front of the rest. -/
theorem popKeyword_of_nonneg : l.popKeyword = .ok (match Lexeme.word? l.mode l.cursor.rest with
    | some x => (some x.token, ⟨l.cursor.behind x.raw, x.mode⟩)
    | none => (none, ⟨l.cursor.behind (Word.read false l.cursor.rest).raw, l.mode⟩)) := by
  rw [popKeyword, Cursor.popWord_of_nonneg false _ hpos rfl, Lexeme.word?]
  simp only [bind, Except.bind]
  split <;> rfl

/-- The lexeme where a lexer stands is taken character by character; where there is none the empty
word is. -/
theorem popLexeme_of_nonneg (h : l.cursor.rest = ch :: cs) :
    l.popLexeme = .ok (match Lexeme.read? l.mode l.cursor.rest with
      | some x => (some x.token, ⟨l.cursor.behind x.raw, x.mode⟩)
      | none => (none, ⟨l.cursor.behind (Word.read false l.cursor.rest).raw, l.mode⟩)) := by
  rw [popLexeme, Cursor.peek_zero hpos, Cursor.peek_one hpos, Lexeme.read?]
  -- a mark where a statement may start
  by_cases hmark : (l.mode.atHead && l.cursor.rest.head? == some (char ':')) = true
  · rw [if_pos hmark]
    rw [Bool.and_eq_true, beq_iff_eq] at hmark
    obtain ⟨ds, hds⟩ := List.head?_eq_some_iff.1 hmark.2
    obtain ⟨x, hx, hpop⟩ := popMark_of_nonneg hpos hds
    rw [hpop, if_pos hmark.1, hx]
    rfl
  rw [if_neg hmark, Lexeme.mark_eq_none hmark, Option.none_or]
  -- a handle behind a redirection
  by_cases hhandle : (l.mode.afterRedirection && l.cursor.rest.head? == some (char '&') &&
      l.cursor.rest[1]?.any Text.isDigit) = true
  · rw [if_pos hhandle]
    simp only [Bool.and_eq_true, beq_iff_eq] at hhandle
    obtain ⟨⟨hr, hhead⟩, hdigit⟩ := hhandle
    obtain ⟨ds, hds⟩ := List.head?_eq_some_iff.1 hhead
    cases ds with
    | nil => simp [hds] at hdigit
    | cons d ds =>
      have hd : Text.isDigit d = true := by simpa [hds] using hdigit
      obtain ⟨x, hx, hpop⟩ := popHandle_of_nonneg hpos hds hd
      rw [hpop, if_pos hr, hx]
      rfl
  -- an operator, which two characters tell, or else a word
  have hne : l.cursor.rest ≠ [] := by rw [h]; exact List.cons_ne_nil ch cs
  rw [if_neg hhandle, Lexeme.handle_eq_none hhandle, Option.none_or, Lexeme.operatorOrWord?,
    ← isSome_operator? hne, popOperator_of_nonneg hpos]
  cases hop : operator? l.cursor.rest with
  | none => exact popKeyword_of_nonneg hpos
  | some found =>
    obtain ⟨kind, rest⟩ := found
    have hkind : kind ∈ Kind.operators := (operator?_eq_some_iff.1 hop).1
    simp only [Option.isSome_some, if_true, ofKind_of_mem_operators hkind]
    rfl

end

/-! ## One pass -/

/-- What a pass is to a lexer that stands at or behind position zero: it gives the answer of a call,
or leaves less of the source and a lexer that answers as this one does. -/
inductive Passes (l : Lexer) : Pass → Prop
  | answer {t : Option PlacedToken} {s : Scanner} : l.scanner.next = (t, s) →
      Passes l (.answer t (l.upTo s))
  | again {l' : Lexer} : 0 ≤ l'.cursor.position → l'.cursor.left < l.cursor.left →
      l'.scanner.next = l.scanner.next → (∀ s, l'.upTo s = l.upTo s) → Passes l (.again l')

/-- An answer behind what has been read. -/
theorem passes_answer {l : Lexer} {t : PlacedToken} {m : Mode} {raw rest : Text}
    (h : l.cursor.rest = raw ++ rest)
    (hnext : l.scanner.next = (some t, ⟨m, l.cursor.place.afterText raw, rest⟩)) :
    l.Passes (.answer (some t) ⟨l.cursor.behind raw, m⟩) := by
  have hupTo : l.upTo ⟨m, l.cursor.place.afterText raw, rest⟩ = ⟨l.cursor.behind raw, m⟩ := by
    rw [upTo, Cursor.leaving_eq_behind h]
  rw [← hupTo]
  exact .answer hnext

/-- A pass behind what a call skips is a pass of the call. -/
theorem Passes.of_later {l l' : Lexer} {r : Pass} (h : l'.Passes r)
    (hleft : l'.cursor.left ≤ l.cursor.left) (hnext : l'.scanner.next = l.scanner.next)
    (hupTo : ∀ s, l'.upTo s = l.upTo s) : l.Passes r := by
  cases h with
  | answer hanswer =>
    rw [hupTo]
    exact .answer (hnext.symm.trans hanswer)
  | again hpos hlt hnext' hupTo' =>
    exact .again hpos (Nat.lt_of_lt_of_le hlt hleft) (hnext'.trans hnext)
      fun s => (hupTo' s).trans (hupTo s)

/-- Blanks change the place only. -/
theorem nextFrom_dropBlanks (m : Mode) : ∀ (p : Place) (t : Text), Scanner.nextFrom m p t =
    Scanner.nextFrom m (p.afterText (t.takeWhile Text.isBlank)) (t.dropWhile Text.isBlank)
  | p, [] => rfl
  | p, c :: cs => by
    cases hc : Text.isBlank c with
    | false => simp [hc, Place.afterText]
    | true =>
      rw [List.takeWhile_cons_of_pos hc, List.dropWhile_cons_of_pos hc, Place.afterText,
        List.foldl_cons, ← Place.afterText, ← nextFrom_dropBlanks m (p.after c) cs,
        Scanner.nextFrom, dif_pos hc]

/-- Walking on to the start of a source leaves no more of it. -/
theorem left_le_of_toStart {l l₀ : Lexer} (h : l.toStart = .ok l₀) :
    l₀.cursor.left ≤ l.cursor.left := by
  rw [toStart] at h
  cases hstart : l.cursor.toStart with
  | error fault =>
    rw [hstart] at h
    cases h
  | ok c =>
    rw [hstart] at h
    cases h
    exact Cursor.left_le_of_advance _ hstart

section

variable {l : Lexer} (hpos : 0 ≤ l.cursor.position)

include hpos

/-- Where a lexer has come to does not depend on where it has been. -/
theorem upTo_behind {t u : Text} (h : l.cursor.rest = t ++ u) (m : Mode) (s : Scanner) :
    (Lexer.mk (l.cursor.behind t) m).upTo s = l.upTo s := by
  have hrest : (l.cursor.behind t).rest = u := Cursor.rest_behind hpos h
  have hposition : (l.cursor.position + t.length : Int) + (u.length - s.rest.length) =
      l.cursor.position + ((t ++ u).length - s.rest.length) := by
    rw [List.length_append]
    omega
  rw [upTo, upTo, Cursor.leaving, Cursor.leaving, hrest, h, ← hposition]
  rfl

/-- Reading on leaves less of the source. -/
theorem left_behind_lt {t u : Text} (h : l.cursor.rest = t ++ u) (ht : t ≠ []) :
    (l.cursor.behind t).left < l.cursor.left := by
  have hlength := List.length_pos_iff.2 ht
  rw [Cursor.left_eq_length_rest hpos, h, Cursor.left_eq_length_rest (Cursor.nonneg_behind hpos t),
    Cursor.rest_behind hpos h, List.length_append]
  omega

/-- Another pass behind what has been read. -/
theorem passes_again {m : Mode} {raw rest : Text} (h : l.cursor.rest = raw ++ rest)
    (hraw : raw ≠ [])
    (hnext : l.scanner.next = Scanner.next ⟨m, l.cursor.place.afterText raw, rest⟩) :
    l.Passes (.again ⟨l.cursor.behind raw, m⟩) := by
  refine .again (Cursor.nonneg_behind hpos raw) (left_behind_lt hpos h hraw) ?_
    (upTo_behind hpos h m)
  rw [hnext, scanner, Cursor.rest_behind hpos h]
  rfl

/-- A pass where no blank stands is one for the call. -/
theorem passes_behindBlanks (hblank : ∀ d, l.cursor.rest.head? = some d → Text.isBlank d = false) :
    ∃ r, l.passBehindBlanks = .ok r ∧ l.Passes r := by
  cases hrest : l.cursor.rest with
  | nil =>
    have hupTo : l.upTo l.scanner = l := by simp [upTo, scanner, Cursor.leaving]
    have hnext : l.scanner.next = (none, l.scanner) := by
      simp only [scanner, Scanner.next, hrest, Scanner.nextFrom]
    refine ⟨.answer none l, by rw [passBehindBlanks, if_pos ((Cursor.atEnd_iff hpos).2 hrest)], ?_⟩
    have hanswer : l.Passes (.answer none (l.upTo l.scanner)) := .answer hnext
    rwa [hupTo] at hanswer
  | cons ch cs =>
    have happ : l.cursor.rest = [ch] ++ cs := hrest
    have hscanner : l.scanner.next = Scanner.nextFrom l.mode l.cursor.place (ch :: cs) := by
      rw [← hrest]
      rfl
    have hadvance : l.advance = .ok (ch, ⟨l.cursor.behind [ch], l.mode⟩) := by
      rw [advance, Cursor.next_of_rest hpos hrest]
      rfl
    rw [passBehindBlanks, Cursor.atEnd_eq_false hpos hrest, Cursor.peek_zero hpos, hrest,
      List.head?_cons, if_neg Bool.false_ne_true]
    -- a line break ends the pass with its token
    by_cases hline : ch = '\n'
    · subst hline
      rw [if_pos (beq_self_eq_true _), hadvance]
      refine ⟨_, rfl, passes_answer happ ?_⟩
      rw [hscanner]
      simp [Scanner.nextFrom, Text.isBlank, Place.afterText]
    -- an `@` is passed over, and another pass begins
    by_cases hhide : ch = '@' ∧ l.mode.atHead = true
    · obtain ⟨rfl, hm⟩ := hhide
      rw [hm, hadvance]
      refine ⟨_, rfl, passes_again hpos happ (List.cons_ne_nil _ _) ?_⟩
      rw [hscanner]
      simp [Scanner.next, Scanner.nextFrom, Text.isBlank, hm, Place.afterText]
    -- the scanner reads a lexeme here, or passes over the empty word
    have hc : StartsLexeme l.mode ch := ⟨hblank ch (by rw [hrest]; rfl), hline, hhide⟩
    have hnewLine : (some ch == some (char '\n')) = false := by simpa using hline
    have hat : (l.mode.atHead && some ch == some (char '@')) = false := by
      simpa [and_comm] using hhide
    rw [hnewLine, hat, popLexeme_of_nonneg hpos hrest, hrest]
    rw [Scanner.nextFrom_of_startsLexeme hc] at hscanner
    cases hread : Lexeme.read? l.mode (ch :: cs) with
    | some x =>
      rw [hread] at hscanner
      have happ' : l.cursor.rest = x.raw ++ x.rest := hrest.trans (Lexeme.read?_eq_some hread).1
      exact ⟨_, rfl, passes_answer happ' hscanner⟩
    | none =>
      rw [hread] at hscanner
      rw [Lexeme.word_of_read?_eq_none hc.1 hc.2.1 hread]
      exact ⟨_, rfl, passes_again hpos happ (List.cons_ne_nil _ _) hscanner⟩

/-- A pass at or behind position zero fails nowhere. -/
theorem pass_of_nonneg : ∃ r, l.pass = .ok r ∧ l.Passes r := by
  have happ : l.cursor.rest =
      l.cursor.rest.takeWhile Text.isBlank ++ l.cursor.rest.dropWhile Text.isBlank :=
    List.takeWhile_append_dropWhile.symm
  have hrest := Cursor.rest_behind hpos happ
  have hblank : ∀ d, (l.cursor.rest.dropWhile Text.isBlank).head? = some d →
      Text.isBlank d = false := by
    intro d hd
    have hnot := List.head?_dropWhile_not Text.isBlank l.cursor.rest
    rw [hd] at hnot
    simpa using hnot
  -- the pass goes on behind the blanks, where the scanner gives what it gives in front of them
  obtain ⟨r, hr, hpasses⟩ := passes_behindBlanks
    (l := ⟨l.cursor.behind (l.cursor.rest.takeWhile Text.isBlank), l.mode⟩)
    (Cursor.nonneg_behind hpos _) (by rw [hrest]; exact hblank)
  refine ⟨r, ?_, hpasses.of_later (Cursor.left_behind_le _ _) ?_ (upTo_behind hpos happ l.mode)⟩
  · rw [pass, Cursor.popBlanks_of_nonneg _ hpos rfl]
    exact hr
  · rw [scanner, hrest]
    exact (nextFrom_dropBlanks l.mode l.cursor.place l.cursor.rest).symm

end

/-- A lexer below zero passes once it has walked on to the start of its source. -/
theorem pass_eq_toStart (l : Lexer) : l.pass = l.toStart.bind pass := by
  rw [pass, Cursor.popBlanks_eq_toStart, toStart]
  cases l.cursor.toStart <;> rfl

/-- A pass leaves less of the source for another one. -/
theorem left_lt_of_pass {l l' : Lexer} (h : l.pass = .ok (.again l')) :
    l'.cursor.left < l.cursor.left := by
  rw [pass_eq_toStart] at h
  cases hstart : l.toStart with
  | error fault =>
    rw [hstart] at h
    cases h
  | ok l₀ =>
    rw [hstart] at h
    obtain ⟨r, hr, hpasses⟩ := pass_of_nonneg (nonneg_of_toStart hstart)
    obtain rfl : r = .again l' := Except.ok.inj (hr.symm.trans h)
    -- walking to the start leaves no more, and the pass behind it leaves less
    cases hpasses with
    | again _ hlt => exact Nat.lt_of_lt_of_le hlt (left_le_of_toStart hstart)

/-! ## One call -/

/-- The next token, taken character by character, and the lexer behind it. -/
def popToken (l : Lexer) : Except Cursor.Fault (Option PlacedToken × Lexer) :=
  match _h : l.pass with
  | .error fault => .error fault
  | .ok (.answer t l') => .ok (t, l')
  | .ok (.again l') => l'.popToken
  termination_by l.cursor.left
  decreasing_by exact left_lt_of_pass _h

/-- A call is its first pass, and the call behind it if there is another. -/
theorem popToken_eq (l : Lexer) : l.popToken = l.pass.bind fun
    | .answer t l' => .ok (t, l')
    | .again l' => l'.popToken := by
  rw [popToken]
  split
  · next h => rw [h]; rfl
  · next h => rw [h]; rfl
  · next h => rw [h]; rfl

/-- At or behind position zero a call takes the token that the scanner takes. -/
theorem popToken_of_nonneg (l : Lexer) (hpos : 0 ≤ l.cursor.position) :
    l.popToken = .ok (l.scanner.next.1, l.upTo l.scanner.next.2) := by
  obtain ⟨r, hr, hpasses⟩ := pass_of_nonneg hpos
  rw [popToken_eq, hr]
  cases hpasses with
  | answer hnext =>
    rw [hnext]
    rfl
  | @again l' hpos' hlt hnext hupTo =>
    -- the next pass stands nearer to the end and answers as this one
    show l'.popToken = _
    rw [popToken_of_nonneg l' hpos', hnext, hupTo]
  termination_by l.cursor.left

/-- **Character by character a lexer takes the token that it takes from the text.** This holds from
any position, at any place and in any mode. -/
theorem popToken_eq_next (l : Lexer) : l.popToken = l.next := by
  -- below zero both walk on to the start first
  have hpop : l.popToken = l.toStart.bind popToken := by
    rw [popToken_eq, pass_eq_toStart]
    cases l.toStart with
    | error fault => rfl
    | ok l₀ => exact (popToken_eq l₀).symm
  rw [hpop]
  cases hstart : l.toStart with
  | error fault => rw [next, hstart]; rfl
  | ok l₀ => rw [next_of_toStart hstart, ← popToken_of_nonneg l₀ (nonneg_of_toStart hstart)]; rfl

/-- A call fails where the lexer stands further back than its source is long, and nowhere else: no
character is taken past the end of the source. -/
theorem popToken_eq_error_iff {l : Lexer} {fault : Cursor.Fault} : l.popToken = .error fault ↔
    fault = .outOfRange ∧ l.cursor.position < -(l.cursor.source.length : Int) := by
  rw [popToken_eq_next, ← Int.not_le]
  constructor
  · exact eq_outOfRange_of_next
  · rintro ⟨rfl, hrange⟩
    exact next_of_not_inRange hrange

/-! ## Calls of the parts -/

/-- The blanks at a lexer are what it skips character by character. -/
theorem skipBlanks_eq_popBlanks (l : Lexer) :
    l.skipBlanks = l.cursor.popBlanks.map fun c => ⟨c, l.mode⟩ := by
  rw [skipBlanks, Cursor.popBlanks_eq_toStart, toStart]
  cases hstart : l.cursor.toStart with
  | error fault => rfl
  | ok c =>
    have hpos : 0 ≤ c.position := Cursor.nonneg_of_toStart hstart
    have hleaving := Cursor.leaving_eq_behind
      (List.takeWhile_append_dropWhile (p := Text.isBlank) (l := c.rest)).symm
    show _ = c.popBlanks.map _
    rw [Cursor.popBlanks_of_nonneg _ hpos rfl, ← hleaving]
    rfl

/-- The operator at a lexer is the first one of the table, from any position. -/
theorem operator_eq_popOperator (l : Lexer) : l.operator = l.popOperator := by
  rw [operator, popOperator, find?_operators]
  cases hop : operator? ([0, 1, 2].filterMap l.cursor.peek) with
  | none => rfl
  | some found =>
    obtain ⟨kind, rest⟩ := found
    have hkind : kind ∈ Kind.operators := (operator?_eq_some_iff.1 hop).1
    simp only [Option.map_some, ofKind_of_mem_operators hkind]

/-- The bare word at a lexer is the one that it takes character by character, with no fault. -/
theorem word_eq_popWord (l : Lexer) :
    l.cursor.popWord false = .ok (l.word.1, l.word.2.cursor) ∧ l.word.2.mode = l.mode := by
  rw [word]
  split
  · next hneg => exact ⟨Cursor.popWord_of_neg hneg, rfl⟩
  · next hpos =>
    have hleaving := Cursor.leaving_eq_behind (Word.raw_append_rest false l.cursor.rest).symm
    refine ⟨?_, rfl⟩
    rw [Cursor.popWord_of_nonneg false _ (Int.not_lt.1 hpos) rfl, ← hleaving]

end Lexer

end Token

end BatchScript
