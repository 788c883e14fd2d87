import BatchScript.Source.Cursor

/-!
# Where a cursor can start

A cursor below zero walks on to the start of its source, one character at a time, and each of these
steps reads a character if the cursor stands no further back than the source is long. A cursor that
stands further back fails at its first step.

Behind its start a cursor looks at what it has left and takes it from the front, so a cursor is told
by the text that it has read.

> `toStart_of_inRange`, `toStart_of_not_inRange`: the two cases;
> `rest_leaving`: what a cursor has left is what was left behind the part it has read;
> `next_of_rest`, `advance_of_rest`: what is left is taken from the front, with no fault.
-/

namespace BatchScript

namespace Cursor

/-- Whether a cursor stands no further before the start of its source than the source is long. -/
def InRange (c : Cursor) : Prop :=
  -(c.source.length : Int) ≤ c.position

/-! ## Below zero -/

/-- Below zero a cursor in range takes some character and moves on. -/
theorem next_of_neg {c : Cursor} (h : c.InRange) (hneg : c.position < 0) :
    ∃ ch, c.next = .ok (ch, ⟨c.source, c.position + 1, c.place.after ch⟩) := by
  have hrange : -(c.source.length : Int) ≤ c.position := h
  have hend : c.atEnd = false := by
    simp only [atEnd, decide_eq_false_iff_not]
    omega
  -- a position below zero counts from the end
  have hindex : (c.source.length + c.position).toNat < c.source.length := by omega
  have hback : ¬(c.source.length + c.position : Int) < 0 := by omega
  refine ⟨c.source[(c.source.length + c.position).toNat], ?_⟩
  simp only [next, hend, if_pos hneg, if_neg hback, List.getElem?_eq_getElem hindex]
  rfl

theorem next_of_not_inRange {c : Cursor} (h : ¬c.InRange) : c.next = .error .outOfRange := by
  have hrange : c.position < -(c.source.length : Int) := Int.not_le.1 h
  have hend : c.atEnd = false := by
    simp only [atEnd, decide_eq_false_iff_not]
    omega
  have hneg : c.position < 0 := by omega
  have hback : (c.source.length + c.position : Int) < 0 := by omega
  simp only [next, hend, if_pos hneg, if_pos hback]
  rfl

/-- Steps below zero that end at zero at the latest. -/
theorem advance_below (count : Nat) : ∀ {c : Cursor}, c.InRange → c.position + count ≤ 0 →
    ∃ place, c.advance count = .ok ⟨c.source, c.position + count, place⟩ := by
  induction count with
  | zero =>
    intro c _ _
    exact ⟨c.place, by simp [advance]⟩
  | succ count ih =>
    intro c hrange hcount
    obtain ⟨ch, hnext⟩ := next_of_neg hrange (by omega)
    have hrange' : InRange ⟨c.source, c.position + 1, c.place.after ch⟩ := by
      unfold InRange at hrange ⊢
      exact Int.le_trans hrange (Int.le_add_one (Int.le_refl _))
    obtain ⟨place, hrest⟩ := ih hrange' (by show c.position + 1 + count ≤ 0; omega)
    refine ⟨place, ?_⟩
    have hposition : c.position + 1 + (count : Int) = c.position + (count + 1 : Nat) := by omega
    rw [hposition] at hrest
    rw [advance, hnext]
    exact hrest

/-- A cursor at or behind position zero need not walk to the start. -/
theorem toStart_of_nonneg {c : Cursor} (h : 0 ≤ c.position) : c.toStart = .ok c := by
  have hcount : (-c.position).toNat = 0 := by omega
  rw [toStart, hcount, advance]

/-- A cursor in range walks on to the start of its source, if it is not behind it already. -/
theorem toStart_of_inRange {c : Cursor} (h : c.InRange) :
    ∃ place, c.toStart = .ok ⟨c.source, max c.position 0, place⟩ := by
  rcases Int.lt_or_le c.position 0 with hneg | hpos
  · obtain ⟨place, hadvance⟩ := advance_below (-c.position).toNat h (by omega)
    refine ⟨place, ?_⟩
    have hposition : c.position + ((-c.position).toNat : Int) = max c.position 0 := by omega
    rw [toStart, hadvance, hposition]
  · rw [toStart_of_nonneg hpos, Int.max_eq_left hpos]
    exact ⟨c.place, rfl⟩

/-- Too far before its source a cursor does not get to the start. -/
theorem toStart_of_not_inRange {c : Cursor} (h : ¬c.InRange) :
    c.toStart = .error .outOfRange := by
  have hrange : c.position < -(c.source.length : Int) := Int.not_le.1 h
  obtain ⟨count, hcount⟩ : ∃ count, (-c.position).toNat = count + 1 :=
    ⟨(-c.position).toNat - 1, by omega⟩
  rw [toStart, hcount, advance, next_of_not_inRange h]
  rfl

/-! ## What is left -/

theorem length_rest (c : Cursor) : c.rest.length = c.source.length - c.position.toNat :=
  List.length_drop

/-- What a cursor has left is what was left behind the part it has read. -/
theorem rest_leaving {c : Cursor} {rest : Text} (hpos : 0 ≤ c.position) (h : rest <:+ c.rest)
    (place : Place) : (c.leaving rest place).rest = rest := by
  have hlen := h.length_le
  have hposition : (c.position + (c.rest.length - rest.length : Int)).toNat =
      c.position.toNat + (c.rest.length - rest.length) := by omega
  show c.source.drop (c.position + (c.rest.length - rest.length : Int)).toNat = rest
  rw [hposition, ← List.drop_drop]
  exact (List.suffix_iff_eq_drop.1 h).symm

/-! ## What has been read -/

/-- The cursor once it has read a text. -/
def behind (c : Cursor) (t : Text) : Cursor :=
  ⟨c.source, c.position + t.length, c.place.afterText t⟩

@[simp] theorem behind_nil (c : Cursor) : c.behind [] = c := by
  simp [behind, Place.afterText]

/-- Two texts that are read in turn are read as one. -/
theorem behind_append (c : Cursor) (t u : Text) : c.behind (t ++ u) = (c.behind t).behind u := by
  simp [behind, Place.afterText_append, Int.add_assoc]

/-- The characters that are left to a cursor, also where it stands below zero or behind the end. -/
def left (c : Cursor) : Nat :=
  (c.source.length - c.position).toNat

/-- A character is taken before the end, wherever the cursor stands, and the place moves past it. -/
theorem eq_behind_of_next {c c' : Cursor} {ch : CodePoint} (h : c.next = .ok (ch, c')) :
    c.position < c.source.length ∧ c' = c.behind [ch] := by
  unfold next at h
  split at h
  · cases h
  · next hend =>
    refine ⟨by simpa [atEnd] using hend, ?_⟩
    -- the position may be below zero, and then the index may still be
    split at h <;> dsimp only at h <;> split at h
    · cases h
    · cases h
      rfl
    · cases h
    · cases h
      rfl

/-- A character that is taken leaves less. -/
theorem left_lt_of_next {c c' : Cursor} {ch : CodePoint} (h : c.next = .ok (ch, c')) :
    c'.left < c.left := by
  obtain ⟨hlt, rfl⟩ := eq_behind_of_next h
  show (c.source.length - (c.position + 1)).toNat < (c.source.length - c.position).toNat
  omega

/-- To advance leaves no more characters than there were. -/
theorem left_le_of_advance (count : Nat) : ∀ {c c' : Cursor}, c.advance count = .ok c' →
    c'.left ≤ c.left := by
  induction count with
  | zero =>
    intro c c' h
    cases h
    exact Nat.le_refl _
  | succ count ih =>
    intro c c' h
    rw [advance] at h
    cases hnext : c.next with
    | error fault =>
      rw [hnext] at h
      cases h
    | ok found =>
      rw [hnext] at h
      exact Nat.le_trans (ih h) (Nat.le_of_lt (left_lt_of_next hnext))

/-- Behind a text no more characters are left than before it. -/
theorem left_behind_le (c : Cursor) (t : Text) : (c.behind t).left ≤ c.left := by
  show (c.source.length - (c.position + t.length)).toNat ≤ (c.source.length - c.position).toNat
  omega

/-- A cursor that has walked on to the start stands at or behind it. -/
theorem nonneg_of_toStart {c c₀ : Cursor} (h : c.toStart = .ok c₀) : 0 ≤ c₀.position := by
  by_cases hrange : c.InRange
  · obtain ⟨place, hstart⟩ := toStart_of_inRange hrange
    rw [h] at hstart
    cases hstart
    exact Int.le_max_right _ _
  · rw [toStart_of_not_inRange hrange] at h
    cases h

section Behind

variable {c : Cursor} {t u : Text} (hpos : 0 ≤ c.position)

include hpos

theorem nonneg_behind (t : Text) : 0 ≤ (c.behind t).position := by
  show 0 ≤ c.position + (t.length : Int)
  omega

/-- Behind the first part of its rest a cursor has the other part left. -/
theorem rest_behind (h : c.rest = t ++ u) : (c.behind t).rest = u := by
  have hposition : (c.position + (t.length : Int)).toNat = c.position.toNat + t.length := by omega
  show c.source.drop (c.position + (t.length : Int)).toNat = u
  rw [hposition, ← List.drop_drop]
  show c.rest.drop t.length = u
  rw [h, List.drop_left]

/-- At or behind position zero, what is left is the rest of the source. -/
theorem left_eq_length_rest : c.left = c.rest.length := by
  rw [length_rest, left]
  omega

/-- What a cursor sees ahead is what it has left there. -/
theorem peek_eq (n : Nat) : c.peek n = c.rest[n]? := by
  have hahead : ¬c.position + (n : Int) < 0 := by omega
  have hindex : (c.position + (n : Int)).toNat = c.position.toNat + n := by omega
  rw [peek, if_neg hahead, hindex, rest, List.getElem?_drop]

theorem peek_zero : c.peek 0 = c.rest.head? := by
  rw [List.head?_eq_getElem?]
  exact peek_eq hpos 0

theorem peek_one : c.peek 1 = c.rest[1]? :=
  peek_eq hpos 1

theorem atEnd_iff : c.atEnd = true ↔ c.rest = [] := by
  rw [atEnd, decide_eq_true_iff, rest, List.drop_eq_nil_iff]
  omega

/-- A cursor takes the character that comes next, with no fault. -/
theorem next_of_rest {ch : CodePoint} (h : c.rest = ch :: t) :
    c.next = .ok (ch, c.behind [ch]) := by
  have hend : c.atEnd = false := by
    rw [← Bool.not_eq_true, atEnd_iff hpos, h]
    exact List.cons_ne_nil ch t
  have hneg : ¬c.position < 0 := by omega
  have hget : c.source[c.position.toNat]? = some ch := by
    rw [← List.head?_drop]
    show c.rest.head? = some ch
    rw [h]
    rfl
  simp only [next, hend, if_neg hneg, hget]
  rfl

end Behind

/-- A cursor takes what comes next one character at a time, with no fault. -/
theorem advance_of_rest : ∀ (t : Text) {c : Cursor} {u : Text}, 0 ≤ c.position → c.rest = t ++ u →
    c.advance t.length = .ok (c.behind t)
  | [], c, _, _, _ => by
    rw [behind_nil]
    rfl
  | ch :: t, c, u, hpos, h => by
    have hrest : (c.behind [ch]).rest = t ++ u := rest_behind hpos h
    have hlater := advance_of_rest t (nonneg_behind hpos [ch]) hrest
    rw [← behind_append] at hlater
    rw [List.length_cons, advance, next_of_rest hpos h]
    exact hlater

/-- Where a text is what precedes the rest, leaving the rest is reading the text. -/
theorem leaving_eq_behind {c : Cursor} {t u : Text} (h : c.rest = t ++ u) :
    c.leaving u (c.place.afterText t) = c.behind t := by
  have hposition : c.position + ((t ++ u).length - u.length : Int) = c.position + t.length := by
    rw [List.length_append]
    omega
  rw [leaving, h, hposition, behind]

end Cursor

end BatchScript
