import BatchScript.Proofs.Token.Lexeme

/-!
# How tokens are written

A token is read from a piece of the text, and the piece tells the value: a line break, a mark and an
operator are written as they are, and a word is written with carets that its value has lost. What is
left over in front of a token and is no blank is a caret that protects nothing.

> `value_eq_unescape`: a word stands for what it is written with, less its carets;
> `read?_speltAs`: the piece that a lexeme is read from.
-/

namespace BatchScript

namespace Token

namespace Word

/-- What a written word stands for: a caret outside of quotes is dropped, and the character behind
it is kept literally, also if it is a quote. A caret at the end protects nothing. -/
def unescape : (quoted : Bool) → Text → Text
  | _, [] => []
  | quoted, c :: cs =>
    if quoted then c :: unescape (c != '"') cs
    else if c = '^' then
      match cs with
      | [] => []
      | d :: ds => d :: unescape false ds
    else c :: unescape (c == '"') cs

/-- Inside of quotes a character stands for itself. -/
theorem unescape_quoted (c : CodePoint) (cs : Text) :
    unescape true (c :: cs) = c :: unescape (c != '"') cs := by
  cases cs <;> simp [unescape]

/-- Outside of quotes a caret is dropped, and the character behind it is kept. -/
theorem unescape_caret (c : CodePoint) (cs : Text) :
    unescape false (char '^' :: c :: cs) = c :: unescape false cs := by
  simp [unescape]

/-- Outside of quotes a character that is no caret stands for itself. -/
theorem unescape_own {c : CodePoint} (hc : c ≠ '^') (cs : Text) :
    unescape false (c :: cs) = c :: unescape (c == '"') cs := by
  cases cs <;> simp [unescape, hc]

/-- A word stands for what it is written with, less its carets. -/
theorem value_eq_unescape (quoted : Bool) (t : Text) :
    (read quoted t).value = unescape quoted (read quoted t).raw := by
  fun_induction read quoted t with
  | case3 c cs _ ih => rw [push, unescape_quoted, ih]
  | case7 => simp_all [pushEscaped, unescape_caret]
  | case8 => simp_all [push, unescape_own]
  | _ => simp_all [unescape]

/-- An escaped quote opens no quotes, so the carets behind it are dropped as well. -/
example : unescape false "a^\"^ b^".text = "a\" b".text := by decide +kernel

end Word

/-- How a token is written in a text. -/
inductive SpeltAs : Token → Text → Prop
  | newLine : SpeltAs ⟨.newLine, ['\n']⟩ ['\n']
  | label : SpeltAs ⟨.label, [':']⟩ [':']
  | comment : SpeltAs ⟨.rem, [':', ':']⟩ [':', ':']
  | operator {kind : Kind} : kind ∈ Kind.operators → SpeltAs ⟨kind, kind.fixedText⟩ kind.fixedText
  | word {raw : Text} : SpeltAs ⟨.word, Word.unescape false raw⟩ raw
  | keyword {kind : Kind} {raw : Text} : Kind.keyword? (Word.unescape false raw) = some kind →
      SpeltAs ⟨kind, Word.unescape false raw⟩ raw

namespace Lexeme

theorem mark?_speltAs {m : Mode} {t : Text} {l : Lexeme} (h : mark? m t = some l) :
    l.token.SpeltAs l.raw := by
  unfold mark? at h
  split at h
  · cases h
    exact .comment
  · cases h
    exact .label
  · cases h

theorem handle?_speltAs {m : Mode} {t : Text} {l : Lexeme} (h : handle? m t = some l) :
    l.token.SpeltAs l.raw := by
  unfold handle? at h
  split at h
  · next d cs =>
    split at h
    · cases h
      have hvalue : char '&' :: (Word.read false (d :: cs)).value =
          Word.unescape false (char '&' :: (Word.read false (d :: cs)).raw) := by
        rw [Word.unescape_own (by decide), Word.value_eq_unescape]
        rfl
      simp only [hvalue]
      exact .word
    · cases h
  · cases h

/-- A word is spelt as it is written. -/
theorem ofWord_speltAs (m : Mode) (t : Text) :
    (ofWord m (Word.read false t)).token.SpeltAs (Word.read false t).raw := by
  have htoken : (ofWord m (Word.read false t)).token =
      ⟨(ofWord m (Word.read false t)).token.kind, Word.unescape false (Word.read false t).raw⟩ := by
    rw [← Word.value_eq_unescape]
    rfl
  rw [htoken]
  rcases ofWord_kind m (Word.read false t) with hk | ⟨-, hk⟩
  · rw [hk]
    exact .word
  · rw [Word.value_eq_unescape] at hk
    exact .keyword hk

/-- The piece that a lexeme is read from is how its token is written. -/
theorem read?_speltAs {m : Mode} {t : Text} {l : Lexeme} (h : read? m t = some l) :
    l.token.SpeltAs l.raw := by
  rcases read?_cases h with ⟨-, h⟩ | ⟨-, ⟨-, h⟩ | ⟨kind, rest, hop, rfl⟩ | ⟨-, rfl⟩⟩
  · exact mark?_speltAs h
  · exact handle?_speltAs h
  · exact .operator (operator?_eq_some_iff.1 hop).1
  · exact ofWord_speltAs m t

end Lexeme

end Token

end BatchScript
