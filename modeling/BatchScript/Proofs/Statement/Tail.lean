import BatchScript.Proofs.Statement.Grammar
import BatchScript.Proofs.Text.Words

/-!
# What a statement takes behind its head

A comment takes the rest of its line. Every other statement takes bare words and redirection markers
only, so no head of a statement is ever taken by another one. An assignment is the only statement
that can fail, and it does so exactly when its words hold no equals sign.

> `MadeOf.tail`: the tokens behind a head;
> `read_eq_error_iff`: when a statement fails, and how.
-/

namespace BatchScript

/-! ## Words with and without an equals sign -/

/-- A text without an equals sign makes no assignment, and every other one does. -/
theorem Assignment.ofText?_eq_none_iff {t : Text} : ofText? t = none ↔ char '=' ∉ t := by
  constructor
  · intro h hmem
    obtain ⟨name, value, ht, hname⟩ := List.eq_append_cons_of_mem hmem
    rw [ofText?_eq_some_iff.2 ⟨name, value, ht, hname, rfl⟩] at h
    cases h
  · intro h
    cases ha : ofText? t with
    | none => rfl
    | some a =>
      obtain ⟨name, value, rfl, -, -⟩ := ofText?_eq_some_iff.1 ha
      simp at h

/-- Words that are joined hold an equals sign only if one of them does. -/
theorem not_mem_joinWords_frontWords {ts : List PlacedToken} :
    char '=' ∉ Text.joinWords (frontWords ts) ↔
      ∀ w ∈ ts.takeWhile PlacedToken.isWord, char '=' ∉ w.value := by
  constructor
  · intro h w hw hc
    exact h (Text.mem_joinWords_of_mem (List.mem_map_of_mem hw) hc)
  · intro h hc
    rcases Text.mem_joinWords hc with hc | ⟨v, hv, hc⟩
    · cases hc
    · obtain ⟨w, hw, rfl⟩ := List.mem_map.1 hv
      exact h w hw hc

/-! ## Behind a head -/

/-- Clauses are made of words and redirection markers. -/
theorem Redirection.MadeOf.kind_cases {r : Option Redirection} {ts : List PlacedToken}
    (h : MadeOf r ts) : ∀ t ∈ ts, t.kind = .word ∨ ∃ kind, t.kind = .redirect kind := by
  induction h with
  | nil => simp
  | last hm ht =>
    rw [PlacedToken.isWord_iff] at ht
    simp [hm, ht]
  | overridden hm ht _ ih =>
    rw [PlacedToken.isWord_iff] at ht
    intro t hmem
    rcases List.mem_cons.1 hmem with rfl | hmem
    · exact Or.inr ⟨_, hm⟩
    rcases List.mem_cons.1 hmem with rfl | hmem
    · exact Or.inl ht
    · exact ih t hmem

/-- A marker in clauses has its target behind it. -/
theorem Redirection.MadeOf.word_behind {r : Option Redirection} {ts : List PlacedToken}
    (h : MadeOf r ts) {t : PlacedToken} {kind : Kind} (hk : t.kind = .redirect kind) :
    ∀ before after : List PlacedToken, ts = before ++ t :: after →
      startsWithWord after = true := by
  have hnot : t.isWord ≠ true := by simp [PlacedToken.isWord, hk]
  induction h with
  | nil => simp
  | @last marker target _ _ ht =>
    intro before after happ
    -- the token is the marker of the first clause, its target, or in a later clause
    rcases before with _ | ⟨u, _ | ⟨v, before⟩⟩
    · cases happ
      exact ht
    · cases happ
      exact absurd ht hnot
    · simp at happ
  | @overridden marker target _ _ ts _ ht _ ih =>
    intro before after happ
    rcases before with _ | ⟨u, _ | ⟨v, before⟩⟩
    · cases happ
      exact ht
    · cases happ
      exact absurd ht hnot
    · simp only [List.cons_append, List.cons.injEq] at happ
      exact ih before after happ.2.2

namespace Statement

/-- Behind its head a comment has the rest of its line, and every other statement has words and
redirection markers only. -/
theorem MadeOf.tail {s : Statement} {head : PlacedToken} {taken : List PlacedToken}
    (h : s.MadeOf (head :: taken)) :
    (head.kind = .rem ∧ ∀ t ∈ taken, t.endsLine = false) ∨
      (head.kind ≠ .rem ∧ ∀ t ∈ taken, t.kind = .word ∨ ∃ kind, t.kind = .redirect kind) := by
  have hwords : ∀ words : List PlacedToken, (∀ w ∈ words, w.isWord = true) →
      ∀ t ∈ words, t.kind = .word ∨ ∃ kind, t.kind = .redirect kind :=
    fun words hw t ht => Or.inl (PlacedToken.isWord_iff.1 (hw t ht))
  cases h with
  | @echo _ words clauses r hk hw hr =>
    refine Or.inr ⟨by simp [hk], fun t ht => ?_⟩
    rcases List.mem_append.1 ht with ht | ht
    · exact hwords words hw t ht
    · exact hr.kind_cases t ht
  | echoLine hk hr => exact Or.inr ⟨by simp [hk], hr.kind_cases⟩
  | exit hk hw | command hk hw => exact Or.inr ⟨by simp [hk], hwords taken hw⟩
  | set hk hw => exact Or.inr ⟨by simp [hk], hwords taken hw⟩
  | @goto _ target hk ht | @label _ target hk ht | @redirect _ target kind hk ht =>
    exact Or.inr ⟨by simp [hk], hwords [target] (by simpa using ht)⟩
  | rem hk hline => exact Or.inl ⟨hk, hline⟩
  | andIfSuccess hk | andAlways hk | newLine hk => exact Or.inr ⟨by simp [hk], by simp⟩
  | unknown hk =>
    -- a comment mark always starts a comment
    refine Or.inr ⟨fun hrem => ?_, by simp⟩
    rw [hrem] at hk
    cases hk

/-- Behind a head that begins no comment a marker has its target behind it. -/
theorem MadeOf.word_behind {s : Statement} {head t : PlacedToken}
    {taken before after : List PlacedToken} (h : s.MadeOf (head :: taken)) (hrem : head.kind ≠ .rem)
    (htaken : taken = before ++ t :: after) {kind : Redirection.Kind}
    (hk : t.kind = .redirect kind) : startsWithWord after = true := by
  have hwords : ∀ words : List PlacedToken, (∀ w ∈ words, w.isWord = true) → t ∉ words := by
    intro words hw hmem
    have hword := PlacedToken.isWord_iff.1 (hw t hmem)
    rw [hk] at hword
    cases hword
  have hmem : t ∈ taken := by simp [htaken]
  cases h with
  | @echo _ words clauses r _ hw hr =>
    -- the words end in front of the marker
    rcases List.append_eq_append_iff.1 htaken with ⟨x, rfl, hclauses⟩ | ⟨x, rfl, hx⟩
    · exact hr.word_behind hk x after hclauses
    · cases x with
      | nil => exact hr.word_behind hk [] after hx.symm
      | cons u us =>
        obtain ⟨rfl, -⟩ := List.cons.inj hx
        exact absurd (by simp) (hwords _ hw)
  | echoLine _ hr => exact hr.word_behind hk before after htaken
  | exit _ hw | command _ hw => exact absurd hmem (hwords taken hw)
  | set _ hw => exact absurd hmem (hwords taken hw)
  | @goto _ target _ ht | @label _ target _ ht | @redirect _ target _ _ ht =>
    exact absurd hmem (hwords [target] (by simpa using ht))
  | rem hk' => exact absurd hk' hrem
  | andIfSuccess | andAlways | newLine | unknown => simp at hmem

/-- A comment ends with its line. -/
theorem MadeOf.atLineEnd_of_rem {s : Statement} {head : PlacedToken}
    {taken rest : List PlacedToken} (h : s.MadeOf (head :: taken)) (hk : head.kind = .rem)
    (hend : s.Before rest) : atLineEnd rest = true := by
  cases h with
  | rem => exact hend
  | unknown hk' =>
    rw [hk] at hk'
    cases hk'
  | _ => simp_all

/-- The words of an assignment hold an equals sign. -/
theorem MadeOf.exists_equals {s : Statement} {head : PlacedToken} {taken : List PlacedToken}
    (h : s.MadeOf (head :: taken)) (hk : head.kind = .set) :
    (∀ w ∈ taken, w.isWord = true) ∧ ∃ w ∈ taken, char '=' ∈ w.value := by
  cases h with
  | set _ hw hjoin =>
    refine ⟨hw, ?_⟩
    have hmem : char '=' ∈ Text.joinWords (taken.map (·.value)) := by
      rw [hjoin]
      simp
    rcases Text.mem_joinWords hmem with hc | ⟨v, hv, hc⟩
    · cases hc
    · obtain ⟨w, hw, rfl⟩ := List.mem_map.1 hv
      exact ⟨w, hw, hc⟩
  | unknown hk' =>
    rw [hk] at hk'
    cases hk'
  | _ => simp_all

/-! ## The one failure -/

/-- An assignment fails exactly when its words hold no equals sign. -/
theorem readSet_eq_error_iff {head : PlacedToken} {ts : List PlacedToken} {e : SyntaxError} :
    (readSet head ts).result = .error e ↔
      (∀ w ∈ ts.takeWhile PlacedToken.isWord, char '=' ∉ w.value) ∧
        e = .invalidAssignment head.line head.column := by
  rw [← not_mem_joinWords_frontWords, ← Assignment.ofText?_eq_none_iff, readSet]
  cases Assignment.ofText? (Text.joinWords (frontWords ts)) with
  | none => simp [eq_comm]
  | some a => simp [Reading.done]

/-- Every other statement is read, if only as a head that is no statement. -/
theorem exists_read_eq_ok {head : PlacedToken} (hk : head.kind ≠ .set) (ts : List PlacedToken) :
    ∃ s, (read head ts).result = .ok s := by
  cases hkind : head.kind with
  | set => exact absurd hkind hk
  | goto | label | redirect _ =>
    have hop : head.kind.takesOperand = true := by rw [hkind]; rfl
    obtain ⟨make, hread, -, -⟩ := exists_operand hop
    rw [hread]
    cases ts with
    | nil => exact ⟨_, rfl⟩
    | cons t ts =>
      rw [readOperand]
      split <;> exact ⟨_, rfl⟩
  | _ =>
    simp only [read, hkind]
    exact ⟨_, rfl⟩

/-- A statement fails exactly when it is an assignment whose words hold no equals sign, and the
error shows the place of its head. -/
theorem read_eq_error_iff {head : PlacedToken} {ts : List PlacedToken} {e : SyntaxError} :
    (read head ts).result = .error e ↔
      head.kind = .set ∧ (∀ w ∈ ts.takeWhile PlacedToken.isWord, char '=' ∉ w.value) ∧
        e = .invalidAssignment head.line head.column := by
  by_cases hk : head.kind = .set
  · rw [← readSet_eq_error_iff, read]
    simp [hk]
  · obtain ⟨s, hs⟩ := exists_read_eq_ok hk ts
    simp [hs, hk]

/-- A statement that fails has taken its words. -/
theorem rest_of_error {head : PlacedToken} {ts : List PlacedToken} {e : SyntaxError}
    (h : (read head ts).result = .error e) : (read head ts).rest = afterWords ts := by
  have hk := (read_eq_error_iff.1 h).1
  simp only [read, hk, readSet]
  split <;> rfl

end Statement

end BatchScript
