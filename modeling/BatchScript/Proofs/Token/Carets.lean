import BatchScript.Proofs.Token.Line
import BatchScript.Proofs.Token.Spelt

/-!
# Carets, counted

The values of tokens hold no more carets than the text that they are read from, since a caret
outside of quotes is dropped and every other one is kept. So if the values hold as many carets as
the text, all carets of the text stand inside quotes, and its words stand for themselves.

> `Scans.carets_spec`: the values hold less carets than the text, or all carets stand inside quotes;
> `line_of_carets_le`: the tokens of a line whose values hold all of its carets.
-/

namespace BatchScript

namespace Token

namespace Word

/-- A character in front keeps carets quoted, if it is no caret outside of quotes. -/
theorem CaretsQuoted.cons {quoted : Bool} {c : CodePoint} {cs : Text} (hc : c = '^' → quoted = true)
    (h : CaretsQuoted (quoted != (c == '"')) cs) : CaretsQuoted quoted (c :: cs) := by
  intro before after happ
  cases before with
  | nil => exact hc (List.cons.inj happ).1
  | cons d ds =>
    obtain ⟨rfl, hds⟩ := List.cons.inj happ
    exact h ds after hds

/-- A character outside of quotes that is neither a caret nor a quote. -/
theorem CaretsQuoted.cons_of_ne {c : CodePoint} {cs : Text} (hcaret : c ≠ '^') (hquote : c ≠ '"')
    (h : CaretsQuoted false cs) : CaretsQuoted false (c :: cs) := by
  have hsame : (false != (c == '"')) = false := by simpa using hquote
  exact .cons (fun hc => absurd hc hcaret) (by rwa [hsame])

/-- Carets are quoted in a text if they are so in its first part, and in the second one behind the
quotes of the first. -/
theorem CaretsQuoted.append {quoted : Bool} {t u : Text} (ht : CaretsQuoted quoted t)
    (hu : CaretsQuoted (isOpen quoted t) u) : CaretsQuoted quoted (t ++ u) := by
  induction t generalizing quoted with
  | nil => exact hu
  | cons c cs ih =>
    refine .cons ?_ (ih ht.of_cons hu)
    rintro rfl
    exact ht [] cs rfl

/-- What the carets of a word tell: it has lost some, or it is written with quoted carets only, and
a quote left open is left open up to the end of the line. -/
theorem carets_spec (quoted : Bool) (t : Text) : char '\n' ∉ t →
    (read quoted t).value.count (char '^') < (read quoted t).raw.count (char '^') ∨
      ((read quoted t).value.count (char '^') = (read quoted t).raw.count (char '^') ∧
        CaretsQuoted quoted (read quoted t).raw ∧
        (isOpen quoted (read quoted t).raw = true → (read quoted t).rest = [])) := by
  fun_induction read quoted t with
  | case1 quoted => exact fun _ => Or.inr ⟨rfl, caretsQuoted_nil quoted, fun _ => rfl⟩
  | case2 | case6 => simp
  | case3 c cs hline ih =>
    intro hmem
    rw [List.mem_cons, not_or] at hmem
    have hstep : (true != (c == '"')) = (c != '"') := by simp [bne]
    simp only [push, List.count_cons]
    rcases ih hmem.2 with hlt | ⟨heq, hcarets, hopen⟩
    · exact Or.inl (by omega)
    · refine Or.inr ⟨by rw [heq], .cons (fun _ => rfl) (by rwa [hstep]), fun h => ?_⟩
      rw [isOpen_cons, hstep] at h
      exact hopen h
  | case4 quoted c cs _ hquoted hend =>
    intro _
    obtain rfl : quoted = false := by simpa using hquoted
    exact Or.inr ⟨rfl, caretsQuoted_nil false, fun h => by cases h⟩
  | case5 =>
    intro _
    exact Or.inl (by decide)
  | case7 quoted hquoted d ds hline _ _ ih =>
    intro hmem
    rw [List.mem_cons, List.mem_cons, not_or, not_or] at hmem
    -- the caret itself is lost
    refine Or.inl ?_
    have hrest : (read false ds).value.count (char '^') ≤ (read false ds).raw.count (char '^') := by
      rcases ih hmem.2.2 with hlt | ⟨heq, -⟩ <;> omega
    simp only [pushEscaped, List.count_cons, beq_self_eq_true, if_true]
    omega
  | case8 quoted c cs hline hquoted hend hcaret ih =>
    intro hmem
    rw [List.mem_cons, not_or] at hmem
    obtain rfl : quoted = false := by simpa using hquoted
    have hstep : (false != (c == '"')) = (c == '"') := by simp
    simp only [push, List.count_cons]
    rcases ih hmem.2 with hlt | ⟨heq, hcarets, hopen⟩
    · exact Or.inl (by omega)
    · refine Or.inr ⟨by rw [heq], .cons (fun hc => absurd hc hcaret) (by rwa [hstep]),
        fun h => ?_⟩
      rw [isOpen_cons, hstep] at h
      exact hopen h

end Word

namespace Lexeme

/-- A handle loses a caret, or it has none outside of quotes and stands as it is written. -/
theorem handle?_carets_spec {m : Mode} {t : Text} {l : Lexeme} (h : handle? m t = some l) :
    char '\n' ∉ t → l.token.value.count (char '^') < l.raw.count (char '^') ∨
      (l.token.value.count (char '^') = l.raw.count (char '^') ∧ Word.CaretsQuoted false l.raw ∧
        (Word.isOpen false l.raw = true → l.rest = [])) := by
  unfold handle? at h
  split at h
  · next d cs =>
    split at h
    · cases h
      intro hline
      rw [List.mem_cons, not_or] at hline
      simp only [List.count_cons]
      rcases Word.carets_spec false (d :: cs) hline.2 with hlt | ⟨heq, hcarets, hopen⟩
      · exact Or.inl (by omega)
      · exact Or.inr ⟨by rw [heq], hcarets.cons_of_ne (by decide) (by decide), hopen⟩
    · cases h
  · cases h

/-- What the carets of a lexeme tell. -/
theorem carets_spec {m : Mode} {t : Text} {l : Lexeme} (hline : char '\n' ∉ t)
    (h : read? m t = some l) : l.token.value.count (char '^') < l.raw.count (char '^') ∨
      (l.token.value.count (char '^') = l.raw.count (char '^') ∧ Word.CaretsQuoted false l.raw ∧
        (Word.isOpen false l.raw = true → l.rest = [])) := by
  -- a text without carets and quotes
  have hplain : ∀ raw : Text, char '^' ∉ raw → char '"' ∉ raw → Word.CaretsQuoted false raw ∧
      (Word.isOpen false raw = true → l.rest = []) := by
    intro raw hcaret hquote
    refine ⟨?_, fun hopen => ?_⟩
    · rintro before after rfl
      exact absurd (List.mem_append_right before List.mem_cons_self) hcaret
    · rw [Word.isOpen_eq, List.count_eq_zero_of_not_mem hquote] at hopen
      cases hopen
  rcases read?_cases h with ⟨-, h⟩ | ⟨-, ⟨-, h⟩ | ⟨kind, rest, hop, rfl⟩ | ⟨-, rfl⟩⟩
  · unfold mark? at h
    split at h
    · cases h
      exact Or.inr ⟨rfl, hplain [':', ':'] (by decide) (by decide)⟩
    · cases h
      exact Or.inr ⟨rfl, hplain [':'] (by decide) (by decide)⟩
    · cases h
  · exact handle?_carets_spec h hline
  · have hnone : ∀ k ∈ Kind.operators, char '^' ∉ k.fixedText ∧ char '"' ∉ k.fixedText := by decide
    obtain ⟨hcaret, hquote⟩ := hnone kind (operator?_eq_some_iff.1 hop).1
    exact Or.inr ⟨rfl, hplain kind.fixedText hcaret hquote⟩
  · exact Word.carets_spec false t hline

end Lexeme

/-- How many carets the values of tokens hold. -/
def carets (ts : List PlacedToken) : Nat :=
  (ts.flatMap (·.value)).count (char '^')

theorem carets_cons (t : PlacedToken) (ts : List PlacedToken) :
    carets (t :: ts) = t.value.count (char '^') + carets ts := by
  rw [carets, List.flatMap_cons, List.count_append, ← carets]

/-- What the carets of a line tell. -/
theorem Scans.carets_spec {m e : Mode} {p : Place} {t : Text} {ts : List PlacedToken}
    (h : Scans m p t ts e) : char '\n' ∉ t →
      carets ts < t.count (char '^') ∨
        (carets ts = t.count (char '^') ∧ Word.CaretsQuoted false t) := by
  induction h with
  | nil => exact fun _ => Or.inr ⟨rfl, Word.caretsQuoted_nil false⟩
  | @blank m e p c cs ts hc _ ih =>
    intro hline
    rw [List.mem_cons, not_or] at hline
    have hother : c ≠ '^' ∧ c ≠ '"' := by
      refine ⟨?_, ?_⟩ <;> (rintro rfl; cases hc)
    rw [List.count_cons_of_ne hother.1]
    rcases ih hline.2 with hlt | ⟨heq, hcarets⟩
    · exact Or.inl hlt
    · exact Or.inr ⟨heq, hcarets.cons_of_ne hother.1 hother.2⟩
  | newLine => simp
  | @hide m e p cs ts _ _ ih =>
    intro hline
    rw [List.mem_cons, not_or] at hline
    rw [List.count_cons_of_ne (by decide)]
    rcases ih hline.2 with hlt | ⟨heq, hcarets⟩
    · exact Or.inl hlt
    · exact Or.inr ⟨heq, hcarets.cons_of_ne (by decide) (by decide)⟩
  | @token m e p c cs l ts hc hl _ ih =>
    intro hline
    obtain ⟨happ, -⟩ := Lexeme.read?_eq_some hl
    have hlexeme := Lexeme.carets_spec hline hl
    rw [happ, List.mem_append, not_or] at hline
    have hrest := ih hline.2
    rw [happ, List.count_append, carets_cons]
    show l.token.value.count (char '^') + carets ts < _ ∨
      (l.token.value.count (char '^') + carets ts = _ ∧ _)
    rcases hlexeme with hlt | ⟨heq, hcarets, hopen⟩
    · refine Or.inl ?_
      rcases hrest with hlt' | ⟨heq', -⟩ <;> omega
    · rcases hrest with hlt' | ⟨heq', hcarets'⟩
      · exact Or.inl (by omega)
      · refine Or.inr ⟨by omega, hcarets.append ?_⟩
        cases hquote : Word.isOpen false l.raw with
        | false => exact hcarets'
        | true =>
          rw [hopen hquote]
          exact Word.caretsQuoted_nil true
  | @skip m e p c cs ts hc hl _ ih =>
    intro hline
    rw [List.mem_cons, not_or] at hline
    obtain ⟨rfl, -⟩ := Lexeme.eq_caret_of_read?_eq_none hc.1 hc.2.1 hl
    -- the caret is skipped
    rw [List.count_cons_self]
    refine Or.inl ?_
    rcases ih hline.2 with hlt | ⟨heq, -⟩ <;> omega

/-- Where the values of a line hold all of its carets, every word of the line stands for itself. -/
theorem line_of_carets_le {t : Text} (hline : char '\n' ∉ t)
    (h : t.count (char '^') ≤ carets (bare .start t)) : Line .start (bare .start t) := by
  obtain ⟨e, hscan⟩ := exists_scans_ofText t
  have hbare : carets (bare .start t) = carets (ofText t) := by
    rw [← hscan.map_unplaced, carets, List.flatMap_map]
    rfl
  rcases hscan.carets_spec hline with hlt | ⟨-, hcarets⟩
  · omega
  · exact line_bare hline hcarets

end Token

end BatchScript
