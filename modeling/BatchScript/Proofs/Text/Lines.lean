import Mathlib.Data.List.TakeWhile
import BatchScript.Text.Basic

/-!
# Lines, joined and cut

A text is cut into lines at its line breaks. Joining undoes the cut, and the cut undoes joining
where no line holds a line break.

> `splitOn_spec`: the parts of a text between the places of a character;
> `lines_spec`: a line holds no line break, and there is one more line than there are line breaks;
> `line_cases`: a text is one line, or a line and a text behind a line break.
-/

namespace BatchScript

namespace Text

/-! ## Joining -/

theorem joinLines_singleton (t : Text) : joinLines [t] = t :=
  List.intercalate_singleton

theorem joinLines_cons_cons (t u : Text) (ts : List Text) :
    joinLines (t :: u :: ts) = t ++ char '\n' :: joinLines (u :: ts) := by
  simp [joinLines]

/-- Lines joined are joined in two parts, if neither part is empty. -/
theorem joinLines_append {ts us : List Text} (ht : ts ≠ []) (hu : us ≠ []) :
    joinLines (ts ++ us) = joinLines ts ++ char '\n' :: joinLines us := by
  obtain ⟨u, us, rfl⟩ := List.exists_cons_of_ne_nil hu
  induction ts with
  | nil => exact absurd rfl ht
  | cons t ts ih =>
    cases ts with
    | nil => rw [List.singleton_append, joinLines_cons_cons, joinLines_singleton]
    | cons t' ts =>
      have hrest := ih (List.cons_ne_nil t' ts)
      rw [List.cons_append] at hrest
      rw [List.cons_append, List.cons_append, joinLines_cons_cons, joinLines_cons_cons, hrest,
        List.append_assoc, List.cons_append]

/-! ## Cutting -/

/-- The lines of a text joined again are the text. -/
theorem joinLines_splitOn (t : Text) : joinLines (t.splitOn (char '\n')) = t :=
  List.intercalate_splitOn (char '\n')

/-- A text does not hold a character, or is cut at the first one. -/
theorem cut_cases (c : CodePoint) (t : Text) :
    c ∉ t ∨ ∃ front rest, t = front ++ c :: rest ∧ c ∉ front := by
  by_cases h : c ∈ t
  · obtain ⟨front, rest, ht, hfront⟩ := List.eq_append_cons_of_mem h
    exact Or.inr ⟨front, rest, ht, hfront⟩
  · exact Or.inl h

/-- The parts of a text between the places of a character do not hold it, and there is one more of
them than there are places. -/
theorem splitOn_spec (c : CodePoint) (t : Text) :
    (∀ part ∈ t.splitOn c, c ∉ part) ∧ (t.splitOn c).length = t.count c + 1 := by
  rcases cut_cases c t with hnone | ⟨front, rest, ht, hfront⟩
  · rw [List.splitOn_eq_singleton hnone, List.count_eq_zero_of_not_mem hnone]
    exact ⟨fun part hmem => List.mem_singleton.1 hmem ▸ hnone, rfl⟩
  · -- the first part is cut off, and the rest is shorter
    have hlen : rest.length < t.length := by
      rw [ht, List.length_append, List.length_cons]
      omega
    obtain ⟨hmem, hlength⟩ := splitOn_spec c rest
    rw [ht, List.splitOn_append_cons_self_of_not_mem hfront, List.count_append,
      List.count_eq_zero_of_not_mem hfront, List.count_cons_self]
    refine ⟨fun part hpart => ?_, ?_⟩
    · rcases List.mem_cons.1 hpart with rfl | hpart
      · exact hfront
      · exact hmem part hpart
    · rw [List.length_cons, hlength]
      omega
  termination_by t.length

/-- A text is one line, or a line and a text behind a line break. -/
theorem line_cases (t : Text) :
    char '\n' ∉ t ∨ ∃ l rest, t = l ++ char '\n' :: rest ∧ char '\n' ∉ l :=
  cut_cases '\n' t

/-- The lines of a text hold no line break, and there is one more of them than there are line
breaks. -/
theorem lines_spec (t : Text) :
    (∀ l ∈ t.splitOn (char '\n'), char '\n' ∉ l) ∧
      (t.splitOn (char '\n')).length = t.count (char '\n') + 1 :=
  splitOn_spec '\n' t

/-- The part of a text behind its last line break. -/
def lastLine (t : Text) : Text :=
  (t.reverse.takeWhile (· != char '\n')).reverse

/-- One more character belongs to the last line, unless it ends the line. -/
theorem lastLine_concat (t : Text) (c : CodePoint) :
    lastLine (t ++ [c]) = if c = '\n' then [] else lastLine t ++ [c] := by
  by_cases h : c = '\n' <;> simp [lastLine, h]

theorem lastLine_of_not_mem {t : Text} (h : char '\n' ∉ t) : lastLine t = t := by
  have hall : ∀ c ∈ t.reverse, (c != '\n') = true := by
    intro c hc
    rw [bne_iff_ne]
    rintro rfl
    exact h (List.mem_reverse.1 hc)
  rw [lastLine, List.takeWhile_eq_self_iff.2 hall, List.reverse_reverse]

/-- What stands before the first line break does not depend on what follows one. -/
theorem takeWhile_append_newLine (t u : Text) :
    (t ++ char '\n' :: u).takeWhile (· != char '\n') = t.takeWhile (· != char '\n') := by
  induction t with
  | nil => simp
  | cons c cs ih =>
    rw [List.cons_append, List.takeWhile_cons, List.takeWhile_cons, ih]

/-- What stands in front of a line break is not on the last line. -/
theorem lastLine_append_newLine (t u : Text) : lastLine (t ++ char '\n' :: u) = lastLine u := by
  have hreverse : (t ++ char '\n' :: u).reverse = u.reverse ++ char '\n' :: t.reverse := by simp
  rw [lastLine, hreverse, takeWhile_append_newLine]
  rfl

end Text

end BatchScript
