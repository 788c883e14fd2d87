import Mathlib.Data.List.Forall2
import BatchScript.Proofs.Token.Lexeme
import BatchScript.Token.Scanner

/-!
# Scanning as a derivation

`Scans m p t ts e` says that a scanner which reads the text `t` in the mode `m` from the place `p`
takes the tokens `ts` and reaches the end in the mode `e`. Its rules are the steps of the scanner,
one each, so a fact about all texts is an induction over them.

> `scans_drain`, `Scans.drain_eq`: the scanner has a derivation, and no other result has one;
> `Scans.move`: another place changes the places of the tokens, and nothing else.
-/

namespace BatchScript

namespace Token

/-- Whether a lexeme may start with a character: the character is not skipped, does not end the
line, and hides no command. -/
def StartsLexeme (m : Mode) (c : CodePoint) : Prop :=
  Text.isBlank c = false ∧ c ≠ '\n' ∧ ¬(c = '@' ∧ m.atHead = true)

/-- The tokens of a text, and the mode at its end. -/
inductive Scans : Mode → Place → Text → List PlacedToken → Mode → Prop
  | nil {m : Mode} {p : Place} : Scans m p [] [] m
  | blank {m e : Mode} {p : Place} {c : CodePoint} {cs : Text} {ts : List PlacedToken} :
      Text.isBlank c = true → Scans m (p.after c) cs ts e → Scans m p (c :: cs) ts e
  | newLine {m e : Mode} {p : Place} {cs : Text} {ts : List PlacedToken} :
      Scans .start (p.after '\n') cs ts e →
      Scans m p (char '\n' :: cs) (placed (.ofKind .newLine) m p :: ts) e
  | hide {m e : Mode} {p : Place} {cs : Text} {ts : List PlacedToken} :
      m.atHead = true → Scans { m with invisible := true } (p.after '@') cs ts e →
      Scans m p (char '@' :: cs) ts e
  | token {m e : Mode} {p : Place} {c : CodePoint} {cs : Text} {l : Lexeme}
      {ts : List PlacedToken} :
      StartsLexeme m c → Lexeme.read? m (c :: cs) = some l →
      Scans l.mode (p.afterText l.raw) l.rest ts e →
      Scans m p (c :: cs) (placed l.token m p :: ts) e
  | skip {m e : Mode} {p : Place} {c : CodePoint} {cs : Text} {ts : List PlacedToken} :
      StartsLexeme m c → Lexeme.read? m (c :: cs) = none → Scans m (p.after c) cs ts e →
      Scans m p (c :: cs) ts e

/-! ## The steps of a scanner -/

namespace Scanner

theorem drain_of_next_eq_none {s s' : Scanner} (h : s.next = (none, s')) : s.drain = ([], s') := by
  rw [drain]
  split
  · next h' =>
    rw [h] at h'
    cases h'
    rfl
  · next h' =>
    rw [h] at h'
    cases h'

theorem drain_of_next_eq_some {s s' : Scanner} {t : PlacedToken} (h : s.next = (some t, s')) :
    s.drain = (t :: s'.drain.1, s'.drain.2) := by
  rw [drain]
  split
  · next h' =>
    rw [h] at h'
    cases h'
  · next h' =>
    rw [h] at h'
    cases h'
    rfl

/-- Scanners with the same next step have the same tokens. -/
theorem drain_congr {s s' : Scanner} (h : s.next = s'.next) : s.drain = s'.drain := by
  cases hn : s'.next with
  | mk t s'' =>
    rw [hn] at h
    cases t with
    | none => rw [drain_of_next_eq_none h, drain_of_next_eq_none hn]
    | some t => rw [drain_of_next_eq_some h, drain_of_next_eq_some hn]

theorem drain_nil (m : Mode) (p : Place) : (Scanner.mk m p []).drain = ([], ⟨m, p, []⟩) :=
  drain_of_next_eq_none (by simp [next, nextFrom])

theorem drain_blank {m : Mode} {p : Place} {c : CodePoint} {cs : Text}
    (hc : Text.isBlank c = true) :
    (Scanner.mk m p (c :: cs)).drain = (Scanner.mk m (p.after c) cs).drain :=
  drain_congr (by simp [next, nextFrom, hc])

theorem drain_newLine {m : Mode} {p : Place} {cs : Text} :
    (Scanner.mk m p (char '\n' :: cs)).drain =
      (placed (.ofKind .newLine) m p :: (Scanner.mk .start (p.after '\n') cs).drain.1,
        (Scanner.mk .start (p.after '\n') cs).drain.2) :=
  drain_of_next_eq_some (by simp [next, nextFrom, Text.isBlank])

theorem drain_hide {m : Mode} {p : Place} {cs : Text} (hm : m.atHead = true) :
    (Scanner.mk m p (char '@' :: cs)).drain =
      (Scanner.mk { m with invisible := true } (p.after '@') cs).drain :=
  drain_congr (by simp [next, nextFrom, Text.isBlank, hm])

/-- What stands where a lexeme may start decides about the next token. -/
theorem nextFrom_of_startsLexeme {m : Mode} {p : Place} {c : CodePoint} {cs : Text}
    (hc : StartsLexeme m c) : nextFrom m p (c :: cs) =
      match Lexeme.read? m (c :: cs) with
      | some l => (some (placed l.token m p), behind l p)
      | none => nextFrom m (p.after c) cs := by
  obtain ⟨hblank, hline, hhide⟩ := hc
  rw [nextFrom]
  simp only [hblank, hline, hhide, Bool.false_eq_true, dite_false, if_false]
  split
  · next hl => rw [hl]
  · next hl =>
    -- the word that stands for nothing is one caret
    rw [hl, Lexeme.word_of_read?_eq_none hblank hline hl]
    rfl

theorem drain_token {m : Mode} {p : Place} {c : CodePoint} {cs : Text} {l : Lexeme}
    (hc : StartsLexeme m c) (hl : Lexeme.read? m (c :: cs) = some l) :
    (Scanner.mk m p (c :: cs)).drain =
      (placed l.token m p :: (behind l p).drain.1, (behind l p).drain.2) :=
  drain_of_next_eq_some (by rw [next, nextFrom_of_startsLexeme hc, hl])

theorem drain_skip {m : Mode} {p : Place} {c : CodePoint} {cs : Text} (hc : StartsLexeme m c)
    (hl : Lexeme.read? m (c :: cs) = none) :
    (Scanner.mk m p (c :: cs)).drain = (Scanner.mk m (p.after c) cs).drain :=
  drain_congr (by rw [next, nextFrom_of_startsLexeme hc, hl]; rfl)

end Scanner

/-! ## The derivation and the scanner -/

/-- A scanner has a derivation. -/
theorem scans_drain : ∀ (m : Mode) (p : Place) (t : Text),
    Scans m p t (Scanner.mk m p t).drain.1 (Scanner.mk m p t).drain.2.mode
  | m, p, [] => by
    rw [Scanner.drain_nil]
    exact .nil
  | m, p, c :: cs => by
    by_cases hblank : Text.isBlank c = true
    · rw [Scanner.drain_blank hblank]
      exact .blank hblank (scans_drain m (p.after c) cs)
    by_cases hline : c = '\n'
    · subst hline
      rw [Scanner.drain_newLine]
      exact .newLine (scans_drain .start (p.after '\n') cs)
    by_cases hhide : c = '@' ∧ m.atHead = true
    · obtain ⟨rfl, hm⟩ := hhide
      rw [Scanner.drain_hide hm]
      exact .hide hm (scans_drain _ (p.after '@') cs)
    have hc : StartsLexeme m c := ⟨by simpa using hblank, hline, hhide⟩
    cases hl : Lexeme.read? m (c :: cs) with
    | none =>
      rw [Scanner.drain_skip hc hl]
      exact .skip hc hl (scans_drain m (p.after c) cs)
    | some l =>
      -- a lexeme is not empty, so what is left is shorter
      obtain ⟨happ, hne⟩ := Lexeme.read?_eq_some hl
      have hlen : cs.length + 1 = l.raw.length + l.rest.length := by
        simpa using congrArg List.length happ
      have hpos := List.length_pos_iff.2 hne
      rw [Scanner.drain_token hc hl]
      exact .token hc hl (scans_drain l.mode (p.afterText l.raw) l.rest)
  termination_by _ _ t => t.length
  decreasing_by all_goals simp only [List.length_cons]; omega

/-- A derivation is what the scanner does. -/
theorem Scans.drain_eq {m e : Mode} {p : Place} {t : Text} {ts : List PlacedToken}
    (h : Scans m p t ts e) : (Scanner.mk m p t).drain = (ts, ⟨e, p.afterText t, []⟩) := by
  induction h with
  | nil => exact Scanner.drain_nil _ _
  | blank hc _ ih => rw [Scanner.drain_blank hc, ih]; rfl
  | newLine _ ih => rw [Scanner.drain_newLine, ih]; rfl
  | hide hm _ ih => rw [Scanner.drain_hide hm, ih]; rfl
  | @token m e p c cs l ts hc hl _ ih =>
    rw [Scanner.drain_token hc hl, Scanner.behind, ih, (Lexeme.read?_eq_some hl).1,
      Place.afterText_append]
  | skip hc hl _ ih => rw [Scanner.drain_skip hc hl, ih]; rfl

/-- The tokens of a text, scanned from its start. -/
theorem Scans.ofText_eq {t : Text} {ts : List PlacedToken} {e : Mode}
    (h : Scans .start .start t ts e) : ofText t = ts := by
  rw [ofText, Scanner.ofText, h.drain_eq]

/-- Every text has a scan. -/
theorem exists_scans (m : Mode) (p : Place) (t : Text) : ∃ ts e, Scans m p t ts e :=
  ⟨_, _, scans_drain m p t⟩

theorem exists_scans_ofText (t : Text) : ∃ e, Scans .start .start t (ofText t) e :=
  ⟨_, scans_drain .start .start t⟩

/-! ## Places -/

/-- Tokens that differ in their places only, which are related. -/
structure MovedBy (R : Place → Place → Prop) (t u : PlacedToken) : Prop where
  token : t.toToken = u.toToken
  invisible : t.invisible = u.invisible
  place : R ⟨t.line, t.column⟩ ⟨u.line, u.column⟩

/-- A relation that holds between places and is kept by each character is kept by a text. -/
theorem afterText_rel {R : Place → Place → Prop} (hR : ∀ p q c, R p q → R (p.after c) (q.after c))
    (t : Text) : ∀ {p q : Place}, R p q → R (p.afterText t) (q.afterText t) := by
  induction t with
  | nil => intro p q h; exact h
  | cons c cs ih => intro p q h; exact ih (hR p q c h)

/-- From another place a text has the same tokens at other places. -/
theorem Scans.move {R : Place → Place → Prop} (hR : ∀ p q c, R p q → R (p.after c) (q.after c))
    {m e : Mode} {p : Place} {t : Text} {ts : List PlacedToken} (h : Scans m p t ts e) :
    ∀ {q : Place}, R p q → ∃ us, Scans m q t us e ∧ List.Forall₂ (MovedBy R) ts us := by
  -- each step is taken from the other place, and its token moves there
  induction h with
  | nil => intro q _; exact ⟨[], .nil, .nil⟩
  | blank hc _ ih =>
    intro q hq
    obtain ⟨us, hus, hmoved⟩ := ih (hR _ _ _ hq)
    exact ⟨us, .blank hc hus, hmoved⟩
  | newLine _ ih =>
    intro q hq
    obtain ⟨us, hus, hmoved⟩ := ih (hR _ _ _ hq)
    exact ⟨_, .newLine hus, .cons ⟨rfl, rfl, hq⟩ hmoved⟩
  | hide hm _ ih =>
    intro q hq
    obtain ⟨us, hus, hmoved⟩ := ih (hR _ _ _ hq)
    exact ⟨us, .hide hm hus, hmoved⟩
  | token hc hl _ ih =>
    intro q hq
    obtain ⟨us, hus, hmoved⟩ := ih (afterText_rel hR _ hq)
    exact ⟨_, .token hc hl hus, .cons ⟨rfl, rfl, hq⟩ hmoved⟩
  | skip hc hl _ ih =>
    intro q hq
    obtain ⟨us, hus, hmoved⟩ := ih (hR _ _ _ hq)
    exact ⟨us, .skip hc hl hus, hmoved⟩

end Token

end BatchScript
