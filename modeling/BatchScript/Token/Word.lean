import BatchScript.Text.Basic

/-!
# Bare words

A bare word runs to the next blank, line break or operator character. Inside double quotes all but
a line break belongs to the word; the quotes stay in it. Outside of quotes a caret takes the next
character literally and is dropped. A quote left open runs to the end of its line.
-/

namespace BatchScript

namespace Token

/-- A character of an operator, which ends a bare word. -/
def isOperatorChar (c : CodePoint) : Bool :=
  c == '<' || c == '>' || c == '|' || c == '&'

/-- A word as it is written, the text it stands for, and what follows it. -/
structure Word where
  raw : Text
  value : Text
  rest : Text
  deriving DecidableEq, Repr

namespace Word

/-- The word with a character in front that stands for itself. -/
def push (c : CodePoint) (w : Word) : Word :=
  ⟨c :: w.raw, c :: w.value, w.rest⟩

/-- The word with a caret and the character that it protects in front. -/
def pushEscaped (c : CodePoint) (w : Word) : Word :=
  ⟨char '^' :: c :: w.raw, c :: w.value, w.rest⟩

/-- The word at the front of a text, which may be empty. -/
def read : (quoted : Bool) → Text → Word
  | _, [] => ⟨[], [], []⟩
  | quoted, c :: cs =>
    if c = '\n' then ⟨[], [], c :: cs⟩
    else if quoted then push c (read (c != '"') cs)
    else if Text.isBlank c || isOperatorChar c then ⟨[], [], c :: cs⟩
    else if c = '^' then
      match cs with
      | [] => ⟨['^'], [], []⟩
      | d :: ds => if d = '\n' then ⟨['^'], [], d :: ds⟩ else pushEscaped d (read false ds)
    else push c (read (c == '"') cs)

/-- A word and what follows it make up the text. -/
theorem raw_append_rest (quoted : Bool) (t : Text) :
    (read quoted t).raw ++ (read quoted t).rest = t := by
  fun_induction read quoted t with
  | case1 => rfl
  | case2 => rfl
  | case3 => simp_all [push]
  | case4 => rfl
  | case5 => rfl
  | case6 => rfl
  | case7 => simp_all [pushEscaped]
  | case8 => simp_all [push]

/-- A word takes the character in front of it, unless this one ends words. -/
theorem rest_length_lt {c : CodePoint} {cs : Text} (hline : c ≠ '\n')
    (hend : (Text.isBlank c || isOperatorChar c) = false) :
    (read false (c :: cs)).rest.length < (c :: cs).length := by
  have hraw : (read false (c :: cs)).raw ≠ [] := by
    unfold read
    rw [if_neg hline, if_neg Bool.false_ne_true, hend, if_neg Bool.false_ne_true]
    split
    · split
      · simp
      · split <;> simp [pushEscaped]
    · simp [push]
  have hlen := congrArg List.length (raw_append_rest false (c :: cs))
  have hpos := List.length_pos_iff.2 hraw
  rw [List.length_append] at hlen
  omega

/-- A word that is written with nothing stands for nothing. -/
theorem value_eq_nil_of_raw_eq_nil {quoted : Bool} {t : Text} (h : (read quoted t).raw = []) :
    (read quoted t).value = [] := by
  revert h
  fun_cases read quoted t <;> simp [push, pushEscaped]

end Word

end Token

end BatchScript
