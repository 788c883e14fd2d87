import BatchScript.Page.Operand
import BatchScript.Proofs.Text.Words

/-!
# Operands of assignments, written and read

The two steps that write an operand are undone one by one. The layer of quotes and the trimming of a
side cancel out, whatever the operand is. The carets are undone when the words of the line are
scanned; here stands what that needs to know of an escaped text.

> `side_wrap`: a side of an assignment that stands in the layer of quotes it needs is meant as the
> operand;
> `escape_append_equals`: the two operands are escaped as one text.
-/

namespace BatchScript

namespace Assignment

theorem dropOpeningQuote_of_head {t : Text} (h : t.head? ≠ some (char '"')) :
    dropOpeningQuote t = t := by
  cases t with
  | nil => rfl
  | cons c cs =>
    have hc : c ≠ '"' := fun hc => h (by rw [hc]; rfl)
    rw [dropOpeningQuote, if_neg hc]

/-- A layer of quotes is taken away. -/
theorem stripQuotes_quoted (t : Text) : stripQuotes (char '"' :: t ++ [char '"']) = t := by
  have hfront : dropOpeningQuote (char '"' :: t ++ [char '"']) = t ++ [char '"'] := rfl
  rw [stripQuotes, hfront, List.reverse_append]
  exact List.reverse_reverse t

/-- A text with no quote at its ends loses none. -/
theorem stripQuotes_eq_self {t : Text} (hfirst : t.head? ≠ some (char '"'))
    (hlast : t.getLast? ≠ some (char '"')) : stripQuotes t = t := by
  rw [stripQuotes, dropOpeningQuote_of_head hfirst, dropOpeningQuote_of_head, List.reverse_reverse]
  rwa [List.head?_reverse]

theorem mem_dropOpeningQuote {t : Text} {c : CodePoint} (h : c ∈ dropOpeningQuote t) : c ∈ t := by
  cases t with
  | nil => exact h
  | cons d ds =>
    rw [dropOpeningQuote] at h
    split at h
    · exact List.mem_cons_of_mem d h
    · exact h

/-- A side holds characters of its text only. -/
theorem mem_side {t : Text} {c : CodePoint} (h : c ∈ side t) : c ∈ t := by
  rw [side, stripQuotes, List.mem_reverse] at h
  have h' := mem_dropOpeningQuote h
  rw [List.mem_reverse] at h'
  exact Text.mem_trim (mem_dropOpeningQuote h')

end Assignment

namespace Operand

/-! ## The layer of quotes -/

/-- An operand that needs no quotes has none at its ends and no white space there. -/
theorem of_not_needsQuotes {t : Text} (h : needsQuotes t = false) :
    t.head? ≠ some (char '"') ∧ t.getLast? ≠ some (char '"') ∧ Text.trim t = t := by
  simp only [needsQuotes, Bool.or_eq_false_iff, beq_eq_false_iff_ne, bne_eq_false_iff_eq] at h
  exact ⟨h.1.1, h.1.2, h.2.symm⟩

/-- Between quotes there is nothing to trim. -/
theorem trim_quoted (t : Text) :
    Text.trim (char '"' :: t ++ [char '"']) = char '"' :: t ++ [char '"'] := by
  have hquote : Text.isSpace '"' = false := by decide
  apply Text.trim_eq_self
  · intro c hc
    cases hc
    exact hquote
  · intro c hc
    rw [List.getLast?_append, List.getLast?_singleton] at hc
    cases hc
    exact hquote

/-- Reading takes away the layer of quotes that writing put on, and nothing else. -/
theorem side_wrap (t : Text) : Assignment.side (wrap t) = t := by
  unfold wrap
  split
  · rw [Assignment.side, trim_quoted, Assignment.stripQuotes_quoted]
  · next h =>
    rw [Bool.not_eq_true] at h
    obtain ⟨hfirst, hlast, htrim⟩ := of_not_needsQuotes h
    rw [Assignment.side, htrim, Assignment.stripQuotes_eq_self hfirst hlast]

/-- An operand in its layer of quotes holds no other characters than these. -/
theorem mem_wrap {t : Text} {c : CodePoint} (h : c ∈ wrap t) : c ∈ t ∨ c = '"' := by
  unfold wrap at h
  split at h
  · rcases List.mem_append.1 h with h | h
    · exact (List.mem_cons.1 h).symm
    · exact Or.inr (List.mem_singleton.1 h)
  · exact Or.inl h

/-- A wrapped operand has no white space at its ends. -/
theorem isSpace_ends_wrap {t : Text} {c : CodePoint}
    (h : (wrap t).head? = some c ∨ (wrap t).getLast? = some c) : Text.isSpace c = false := by
  have htrim : Text.trim (wrap t) = wrap t := by
    unfold wrap
    split
    · exact trim_quoted t
    · next hq =>
      rw [Bool.not_eq_true] at hq
      exact (of_not_needsQuotes hq).2.2
  rw [← htrim] at h
  exact h.elim Text.head?_trim Text.getLast?_trim

/-! ## The carets -/

theorem startsWithSpace_append (t u : Text) (h : startsWithSpace u = false) :
    startsWithSpace (t ++ u) = startsWithSpace t := by
  cases t with
  | nil => exact h
  | cons c cs => rfl

theorem escape_special {c : CodePoint} (hc : isSpecial c = true) (afterSpace : Bool) (cs : Text) :
    escape afterSpace (c :: cs) = char '^' :: c :: escape false cs := by
  rw [escape, if_pos hc]

/-- White space is escaped, unless it is a plain space by itself. -/
theorem escape_space {c : CodePoint} (hc : Text.isSpace c = true) (hs : isSpecial c = false)
    (afterSpace : Bool) (cs : Text) :
    escape afterSpace (c :: cs) = char '^' :: c :: escape true cs ∨
      (escape afterSpace (c :: cs) = char ' ' :: escape true cs ∧ c = ' ' ∧ afterSpace = false ∧
        startsWithSpace cs = false) := by
  rw [escape, hs, if_neg Bool.false_ne_true, if_pos hc]
  split
  · exact Or.inl rfl
  · next h =>
    simp only [Bool.or_eq_true, bne_iff_ne, not_or, Decidable.not_not, Bool.not_eq_true] at h
    obtain ⟨⟨rfl, hafter⟩, hcs⟩ := h
    exact Or.inr ⟨rfl, rfl, hafter, hcs⟩

theorem escape_plain {c : CodePoint} (hc : Text.isSpace c = false) (hs : isSpecial c = false)
    (afterSpace : Bool) (cs : Text) : escape afterSpace (c :: cs) = c :: escape false cs := by
  rw [escape, hs, if_neg Bool.false_ne_true, hc, if_neg Bool.false_ne_true]

/-- Whether white space stands before a text does not matter to a text that starts with none. -/
theorem escape_of_not_startsWithSpace {t : Text} (h : startsWithSpace t = false)
    (afterSpace : Bool) : escape afterSpace t = escape false t := by
  cases t with
  | nil => rfl
  | cons c cs =>
    cases hs : isSpecial c with
    | true => rw [escape_special hs, escape_special hs]
    | false => rw [escape_plain h hs, escape_plain h hs]

/-- Two texts with an equals sign between them are escaped one by one. -/
theorem escape_append_equals (t u : Text) : ∀ afterSpace : Bool,
    escape afterSpace (t ++ char '=' :: u) = escape afterSpace t ++ char '=' :: escape false u := by
  have hequals : Text.isSpace '=' = false ∧ isSpecial '=' = false := by decide
  induction t with
  | nil =>
    intro afterSpace
    exact escape_plain hequals.1 hequals.2 afterSpace u
  | cons c cs ih =>
    intro afterSpace
    -- the look-ahead for white space sees the equals sign as it sees the end
    have hnext : startsWithSpace (cs ++ char '=' :: u) = startsWithSpace cs :=
      startsWithSpace_append cs _ hequals.1
    rw [List.cons_append, escape, escape, hnext, ih, ih]
    split
    · rfl
    · split
      · split <;> rfl
      · rfl

/-- Only carets are added to an operand. -/
theorem mem_escape {t : Text} {c : CodePoint} : ∀ {afterSpace : Bool},
    c ∈ escape afterSpace t → c ∈ t ∨ c = '^' := by
  induction t with
  | nil =>
    intro afterSpace h
    exact Or.inl h
  | cons d ds ih =>
    intro afterSpace h
    -- with a caret or without one, the rest of the text is escaped behind the character
    obtain ⟨after, h⟩ : ∃ after, c ∈ char '^' :: d :: escape after ds := by
      rw [escape] at h
      split at h
      · exact ⟨false, h⟩
      · split at h
        · split at h
          · exact ⟨true, h⟩
          · exact ⟨true, List.mem_cons_of_mem (char '^') h⟩
        · exact ⟨false, List.mem_cons_of_mem (char '^') h⟩
    rcases List.mem_cons.1 h with h | h
    · exact Or.inr h
    · rcases List.mem_cons.1 h with h | h
      · exact Or.inl (h ▸ List.mem_cons_self)
      · exact (ih h).imp (List.mem_cons_of_mem d) id

/-- A written operand holds its own characters, carets and quotes. -/
theorem mem_write {t : Text} {c : CodePoint} (h : c ∈ write t) : c ∈ t ∨ c = '^' ∨ c = '"' := by
  rcases mem_escape h with h | h
  · rcases mem_wrap h with h | h
    · exact Or.inl h
    · exact Or.inr (Or.inr h)
  · exact Or.inr (Or.inl h)

end Operand

end BatchScript
