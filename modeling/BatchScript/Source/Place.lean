import BatchScript.Text.Basic

/-!
# Places

A place is a line and a column of a source, both usually counted from one. Reading a character moves
a place: a line break to the first column of the next line, every other character one column on.
-/

namespace BatchScript

/-- A line and a column. -/
structure Place where
  line : Int
  column : Int
  deriving DecidableEq, Repr

namespace Place

/-- The place where a source starts. -/
def start : Place :=
  ⟨1, 1⟩

/-- The place behind one character. -/
def after (p : Place) (c : CodePoint) : Place :=
  if c = '\n' then ⟨p.line + 1, 1⟩ else ⟨p.line, p.column + 1⟩

/-- The place behind a text. -/
def afterText (p : Place) (t : Text) : Place :=
  t.foldl after p

/-- Reading two texts in turn is reading them as one. -/
theorem afterText_append (p : Place) (t u : Text) :
    p.afterText (t ++ u) = (p.afterText t).afterText u := by
  simp [afterText]

/-- A text without line breaks moves the column by its length. -/
theorem afterText_eq_of_not_mem {p : Place} {t : Text} (h : char '\n' ∉ t) :
    p.afterText t = ⟨p.line, p.column + t.length⟩ := by
  induction t generalizing p with
  | nil => simp [afterText]
  | cons c cs ih =>
    rw [List.mem_cons, not_or] at h
    rw [afterText, List.foldl_cons, ← afterText, ih h.2, after, if_neg (Ne.symm h.1)]
    simp only [List.length_cons, Place.mk.injEq, true_and]
    omega

end Place

end BatchScript
