import Mathlib.Data.List.Find
import BatchScript.Proofs.Source.Cursor
import BatchScript.Proofs.Token.Lookahead

/-!
# Blanks, words and operators, character by character

A word is read from a list, where no character can be missing. Here a cursor takes it, one character
after the other: a character is looked at before it is taken, and taking one fails past the end of
the source and too far before its start. Below zero no character is seen, which counts as a blank.

Behind its start a cursor takes what stands at the front of what it has left. Below zero there is no
word, and skipping blanks is walking on to the start.

> `popBlanks_of_nonneg`, `popWord_of_nonneg`: blanks and words behind the start;
> `popBlanks_eq_toStart`, `popWord_of_neg`: below zero;
> `find?_operators`: an operator is the first one of a table that the text starts with.
-/

namespace BatchScript

namespace Cursor

open Token (isOperatorChar Word)

/-! ## Blanks and words -/

/-- The cursor behind the blanks that it comes to. -/
def popBlanks (c : Cursor) : Except Fault Cursor :=
  if c.atEnd then .ok c
  else if (c.peek 0).all Text.isBlank then
    match _h : c.next with
    | .error fault => .error fault
    | .ok (_, c') => c'.popBlanks
  else .ok c
  termination_by c.left
  decreasing_by exact left_lt_of_next _h

/-- The bare word that the cursor comes to, inside of quotes or outside of them. -/
def popWord (quoted : Bool) (c : Cursor) : Except Fault (Text × Cursor) :=
  if c.atEnd then .ok ([], c)
  else if c.peek 0 = some (char '\n') then .ok ([], c)
  else if quoted then
    match _h : c.next with
    | .error fault => .error fault
    | .ok (ch, c') =>
      (c'.popWord (c.peek 0 != some (char '"'))).map fun (word, last) => (ch :: word, last)
  else if (c.peek 0).all fun ch => Text.isBlank ch || isOperatorChar ch then .ok ([], c)
  else if c.peek 0 = some (char '^') then
    match _h : c.next with
    | .error fault => .error fault
    | .ok (_, c₁) =>
      if c₁.atEnd || c₁.peek 0 == some (char '\n') then c₁.popWord false
      else
        match _h₁ : c₁.next with
        | .error fault => .error fault
        | .ok (ch, c₂) => (c₂.popWord false).map fun (word, last) => (ch :: word, last)
  else
    match _h : c.next with
    | .error fault => .error fault
    | .ok (ch, c') =>
      (c'.popWord (c.peek 0 == some (char '"'))).map fun (word, last) => (ch :: word, last)
  termination_by c.left
  decreasing_by
    · exact left_lt_of_next _h
    · exact left_lt_of_next _h
    · exact Nat.lt_trans (left_lt_of_next _h₁) (left_lt_of_next _h)
    · exact left_lt_of_next _h

/-- A blank is taken, and then the blanks behind it. -/
theorem popBlanks_eq (c : Cursor) : c.popBlanks =
    if c.atEnd then .ok c
    else if (c.peek 0).all Text.isBlank then c.next.bind fun (_, c') => c'.popBlanks
    else .ok c := by
  rw [popBlanks]
  split
  · rfl
  split
  · split
    · next hnext => rw [hnext]; rfl
    · next hnext => rw [hnext]; rfl
  · rfl

/-! ## Behind the start -/

section

variable {c : Cursor} {ch : CodePoint} {cs : Text} (hpos : 0 ≤ c.position)

include hpos

theorem atEnd_eq_false (h : c.rest = ch :: cs) : c.atEnd = false := by
  rw [← Bool.not_eq_true, atEnd_iff hpos, h]
  exact List.cons_ne_nil ch cs

theorem popWord_nil (quoted : Bool) (h : c.rest = []) : c.popWord quoted = .ok ([], c) := by
  rw [popWord, if_pos ((atEnd_iff hpos).2 h)]

theorem popWord_newLine (quoted : Bool) (h : c.rest = char '\n' :: cs) :
    c.popWord quoted = .ok ([], c) := by
  rw [popWord, atEnd_eq_false hpos h, peek_zero hpos, h, List.head?_cons,
    if_neg Bool.false_ne_true, if_pos rfl]

/-- A word goes on with the character that comes next. -/
theorem popWord_cons (quoted : Bool) (h : c.rest = ch :: cs) : c.popWord quoted =
    if ch = '\n' then .ok ([], c)
    else if quoted then
      ((c.behind [ch]).popWord (ch != '"')).map fun (word, last) => (ch :: word, last)
    else if Text.isBlank ch || isOperatorChar ch then .ok ([], c)
    else if ch = '^' then
      match cs with
      | [] => .ok ([], c.behind [ch])
      | d :: _ =>
        if d = '\n' then .ok ([], c.behind [ch])
        else ((c.behind [ch, d]).popWord false).map fun (word, last) => (d :: word, last)
    else ((c.behind [ch]).popWord (ch == '"')).map fun (word, last) => (ch :: word, last) := by
  have hnext := next_of_rest hpos h
  have hrest : (c.behind [ch]).rest = cs := rest_behind hpos h
  have hpos' := nonneg_behind hpos [ch]
  -- the cases of the definition in their order, each with the character that the cursor takes
  rw [popWord]
  simp only [atEnd_eq_false hpos h, peek_zero hpos, h, List.head?_cons, Option.some.injEq,
    Option.all_some, Bool.false_eq_true, if_false]
  split
  · rfl
  split
  · split
    · next h' => rw [hnext] at h'; cases h'
    · next h' => rw [hnext] at h'; cases h'; rfl
  split
  · rfl
  split
  · split
    · next h' => rw [hnext] at h'; cases h'
    · next h' =>
      rw [hnext] at h'
      cases h'
      cases cs with
      | nil => simp [(atEnd_iff hpos').2 hrest, popWord_nil hpos' false hrest]
      | cons d ds =>
        have hnext' := next_of_rest hpos' hrest
        rw [← behind_append] at hnext'
        simp only [atEnd_eq_false hpos' hrest, peek_zero hpos', hrest, List.head?_cons,
          Bool.false_or, beq_iff_eq, Option.some.injEq]
        split
        · next hd =>
          subst hd
          exact popWord_newLine hpos' false hrest
        · split
          · next h' => rw [hnext'] at h'; cases h'
          · next h' => rw [hnext'] at h'; cases h'; rfl
  · split
    · next h' => rw [hnext] at h'; cases h'
    · next h' => rw [hnext] at h'; cases h'; rfl

/-- Where no blank stands the cursor stays. -/
theorem popBlanks_of_not_isBlank (h : ∀ d, c.rest.head? = some d → Text.isBlank d = false) :
    c.popBlanks = .ok c := by
  cases hrest : c.rest with
  | nil => rw [popBlanks_eq, if_pos ((atEnd_iff hpos).2 hrest)]
  | cons d ds =>
    rw [hrest] at h
    rw [popBlanks_eq, atEnd_eq_false hpos hrest, peek_zero hpos, hrest, List.head?_cons]
    simp [h d rfl]

/-- A blank is passed, and then the blanks behind it. -/
theorem popBlanks_of_isBlank (h : c.rest = ch :: cs) (hch : Text.isBlank ch = true) :
    c.popBlanks = (c.behind [ch]).popBlanks := by
  rw [popBlanks_eq, atEnd_eq_false hpos h, peek_zero hpos, next_of_rest hpos h, h, List.head?_cons,
    Option.all_some, hch]
  rfl

end

/-- A word is taken one character after the other as it stands at the front of what is left. -/
theorem popWord_of_nonneg : ∀ (quoted : Bool) (t : Text) {c : Cursor}, 0 ≤ c.position →
    c.rest = t →
      c.popWord quoted = .ok ((Word.read quoted t).value, c.behind (Word.read quoted t).raw)
  | quoted, [], c, hpos, h => by
    rw [popWord_nil hpos quoted h, Word.read_nil, behind_nil]
  | quoted, ch :: cs, c, hpos, h => by
    have hrest : (c.behind [ch]).rest = cs := rest_behind hpos h
    have hpos' := nonneg_behind hpos [ch]
    -- a word that goes on behind the character that comes next
    have hpush : ∀ quoted,
        ((c.behind [ch]).popWord quoted).map (fun (word, last) => (ch :: word, last)) =
          .ok ((Word.push ch (Word.read quoted cs)).value,
            c.behind (Word.push ch (Word.read quoted cs)).raw) := by
      intro quoted
      rw [popWord_of_nonneg quoted cs hpos' hrest, ← behind_append]
      rfl
    rw [popWord_cons hpos quoted h, Word.read_cons]
    split
    · simp
    split
    · exact hpush _
    split
    · simp
    split
    · next hcaret =>
      cases cs with
      | nil => simp [hcaret]
      | cons d ds =>
        have hrest' : (c.behind [ch, d]).rest = ds := rest_behind hpos h
        simp only
        split
        · simp [hcaret]
        · rw [popWord_of_nonneg false ds (nonneg_behind hpos [ch, d]) hrest', ← behind_append,
            hcaret]
          rfl
    · exact hpush _
  termination_by _ t => t.length

/-- Blanks are taken one by one as they stand at the front of what is left. -/
theorem popBlanks_of_nonneg : ∀ (t : Text) {c : Cursor}, 0 ≤ c.position → c.rest = t →
    c.popBlanks = .ok (c.behind (t.takeWhile Text.isBlank))
  | [], c, hpos, h => by
    rw [popBlanks_of_not_isBlank hpos (by simp [h])]
    simp
  | ch :: t, c, hpos, h => by
    cases hch : Text.isBlank ch with
    | false =>
      rw [popBlanks_of_not_isBlank hpos (by simp [h, hch])]
      simp [hch]
    | true =>
      have hrest : (c.behind [ch]).rest = t := rest_behind hpos h
      rw [popBlanks_of_isBlank hpos h hch, popBlanks_of_nonneg t (nonneg_behind hpos [ch]) hrest,
        ← behind_append, List.takeWhile_cons_of_pos hch]
      rfl

/-! ## Below zero -/

/-- Below zero there is no character to see. -/
theorem peek_of_neg {c : Cursor} (h : c.position < 0) : c.peek 0 = none := by
  rw [peek, if_pos (by omega)]

/-- Below zero a cursor is not at the end. -/
theorem atEnd_of_neg {c : Cursor} (h : c.position < 0) : c.atEnd = false := by
  simp only [atEnd, decide_eq_false_iff_not]
  omega

/-- Below zero no character is seen, which counts as a blank. -/
theorem popBlanks_of_neg {c : Cursor} (h : c.position < 0) :
    c.popBlanks = c.next.bind fun (_, c') => c'.popBlanks := by
  rw [popBlanks_eq, atEnd_of_neg h, peek_of_neg h]
  rfl

/-- A cursor below zero skips what lies before the start of its source. -/
theorem popBlanks_eq_toStart (c : Cursor) : c.popBlanks = c.toStart.bind popBlanks := by
  have hsteps : ∀ (count : Nat) (c : Cursor), (-c.position).toNat = count →
      c.popBlanks = (c.advance count).bind popBlanks := by
    intro count
    induction count with
    | zero => intro c _; rfl
    | succ count ih =>
      intro c hcount
      rw [popBlanks_of_neg (by omega), advance]
      cases hnext : c.next with
      | error fault => rfl
      | ok found =>
        obtain ⟨ch, c'⟩ := found
        obtain ⟨-, rfl⟩ := eq_behind_of_next hnext
        refine ih (c.behind [ch]) ?_
        show (-(c.position + 1)).toNat = count
        omega
  exact hsteps _ c rfl

/-- There is no word below zero. -/
theorem popWord_of_neg {c : Cursor} (h : c.position < 0) : c.popWord false = .ok ([], c) := by
  rw [popWord, atEnd_of_neg h, peek_of_neg h]
  simp

end Cursor

/-! ## Operators, marks and handles -/

namespace Token

/-- The longest operator at the front of a text is the first one of the table that the text starts
with. -/
theorem find?_operators (t : Text) :
    Kind.operators.find? (·.fixedText.isPrefixOf t) = (operator? t).map (·.1) := by
  fun_cases operator? t with
  | case1 | case3 | case5 | case7 | case8 => rfl
  | case2 cs hlonger | case4 cs hlonger | case6 cs hlonger =>
    -- the table has the longer operator first
    cases cs with
    | nil => rfl
    | cons c cs =>
      have hnot : ∀ d, ¬c = d → (d == c) = false := fun d hd => by simpa using Ne.symm hd
      simp_all [Kind.operators, Kind.fixedText, Kind.spelling?, Redirection.Kind.spelling,
        List.isPrefixOf]
  | case9 =>
    rw [Option.map_none, List.find?_eq_none]
    intro kind hkind hprefix
    obtain ⟨cs, rfl⟩ := List.isPrefixOf_iff_prefix.1 hprefix
    simp only [Kind.operators, List.mem_cons, List.not_mem_nil, or_false] at hkind
    rcases hkind with rfl | rfl | rfl | rfl | rfl | rfl | rfl | rfl <;>
      simp_all [Kind.fixedText, Kind.spelling?, Redirection.Kind.spelling]

/-- An operator is written in its usual spelling. -/
theorem ofKind_of_mem_operators {kind : Kind} (h : kind ∈ Kind.operators) :
    Token.ofKind kind = ⟨kind, kind.fixedText⟩ := by
  have hall : ∀ k ∈ Kind.operators, Token.ofKind k = ⟨k, k.fixedText⟩ := by decide
  exact hall kind h

/-- Three characters are enough to tell the operator. -/
theorem find?_operators_take (t : Text) :
    Kind.operators.find? (·.fixedText.isPrefixOf (t.take 3)) = (operator? t).map (·.1) := by
  have hlength : ∀ kind ∈ Kind.operators, kind.fixedText.length ≤ 3 := by decide
  rw [← find?_operators]
  refine List.find?_congr fun kind hkind => ?_
  rw [Bool.eq_iff_iff, List.isPrefixOf_iff_prefix, List.isPrefixOf_iff_prefix, List.prefix_take_iff]
  exact and_iff_left (hlength kind hkind)

/-- There is no mark where no statement may start or no colon stands. -/
theorem Lexeme.mark_eq_none {m : Mode} {t : Text}
    (h : ¬(m.atHead && t.head? == some (char ':')) = true) :
    (if m.atHead then mark? m t else none) = none := by
  split
  · next hm => exact mark?_eq_none_iff.2 fun hhead => h (by rw [hm, hhead]; rfl)
  · rfl

/-- There is no handle unless a redirection comes before an ampersand and a digit. -/
theorem Lexeme.handle_eq_none {m : Mode} {t : Text}
    (h : ¬(m.afterRedirection && t.head? == some (char '&') && t[1]?.any Text.isDigit) = true) :
    (if m.afterRedirection then handle? m t else none) = none := by
  split
  · next hr =>
    refine handle?_eq_none_iff.2 fun d hhead hone => ?_
    rw [hr, hhead, hone] at h
    simpa using h
  · rfl

/-- Whether an operator starts a text that goes on is seen from two characters. -/
theorem isSome_operator? {t : Text} (h : t ≠ []) : (operator? t).isSome =
    (t.head?.all isOperatorChar || (t.head? == some (char '2') && t[1]? == some (char '>'))) := by
  obtain ⟨c, cs, rfl⟩ := List.exists_cons_of_ne_nil h
  rw [Bool.eq_iff_iff, Option.isSome_iff_ne_none, Ne, operator?_eq_none_iff]
  cases hop : isOperatorChar c with
  | true => simp [hop]
  | false => simp [hop]

end Token

end BatchScript
