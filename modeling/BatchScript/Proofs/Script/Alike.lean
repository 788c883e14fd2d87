import Mathlib.Data.List.Forall2
import BatchScript.Proofs.Statement.Grammar

/-!
# What of a token a reading depends on

Two lists of tokens are read in lock-step when their tokens agree, place by place, in all that a
reading looks at: the kind; the text, where the kind has no fixed spelling; and the flag, where the
kind starts a command that shows it. Where tokens stand in the source is never looked at. It only
shows in an error, which names the place of the assignment at fault, and in a token that is kept as
no statement.

> `read_inStep`: related tokens are read as related statements, or fail at related tokens;
> `read_lockstep`: without a relation, the tokens that are kept or at fault stand at one index.

The relation is a parameter. It may be finer than `ReadAlike` and say more about the two tokens, for
instance how their places are related; the statements then inherit it.
-/

namespace BatchScript

/-- Whether a statement with a head of this kind shows the flag of its head. -/
def Token.Kind.showsFlag : Token.Kind → Bool
  | .echo | .echoLine | .exit | .goto | .set => true
  | _ => false

/-- Tokens that no reading can tell apart. -/
structure PlacedToken.ReadAlike (t u : PlacedToken) : Prop where
  kind : t.kind = u.kind
  value : t.kind.spelling? = none → t.value = u.value
  flag : t.kind.showsFlag = true → t.invisible = u.invisible

/-- Statements that are equal, or that keep related tokens as no statement. -/
inductive Statement.Alike (R : PlacedToken → PlacedToken → Prop) : Statement → Statement → Prop
  | same (s : Statement) : Alike R s s
  | unknown {t u : PlacedToken} : R t u → Alike R (.unknown t) (.unknown u)

/-- Statements that are equal and keep no token, or that keep related tokens. -/
inductive Statement.InStep (R : PlacedToken → PlacedToken → Prop) : Statement → Statement → Prop
  | same {s : Statement} : s.unknown? = none → InStep R s s
  | unknown {t u : PlacedToken} : R t u → InStep R (.unknown t) (.unknown u)

/-- Statements in step are alike. -/
theorem Statement.InStep.alike {R : PlacedToken → PlacedToken → Prop} {s s' : Statement}
    (h : InStep R s s') : Alike R s s' := by
  cases h with
  | same => exact .same s
  | unknown htu => exact .unknown htu

/-- Tokens are related to what they are mapped to. -/
theorem forall₂_map_self (f : PlacedToken → PlacedToken) (ts : List PlacedToken) :
    List.Forall₂ (fun t u => u = f t) ts (ts.map f) := by
  rw [List.forall₂_map_right_iff, List.forall₂_same]
  exact fun _ _ => rfl

/-- Results that are related, or errors at related tokens. -/
inductive SyntaxError.Agree (R : PlacedToken → PlacedToken → Prop) {α : Type}
    (S : α → α → Prop) : Except SyntaxError α → Except SyntaxError α → Prop
  | ok {a b : α} : S a b → Agree R S (.ok a) (.ok b)
  | error {t u : PlacedToken} : R t u →
      Agree R S (.error (.invalidAssignment t.line t.column))
        (.error (.invalidAssignment u.line u.column))

/-- A result that agrees with an error is an error at a related token. -/
theorem SyntaxError.Agree.exists_of_error {R : PlacedToken → PlacedToken → Prop} {α : Type}
    {S : α → α → Prop} {e : SyntaxError} {r r' : Except SyntaxError α} (h : Agree R S r r')
    (hr : r = .error e) :
    ∃ t u, R t u ∧ e = .invalidAssignment t.line t.column ∧
      r' = .error (.invalidAssignment u.line u.column) := by
  cases h with
  | ok => cases hr
  | @error t u htu =>
    cases hr
    exact ⟨t, u, htu, rfl, rfl⟩

/-- A result that agrees with a success is a related success. -/
theorem SyntaxError.Agree.exists_of_ok {R : PlacedToken → PlacedToken → Prop} {α : Type}
    {S : α → α → Prop} {a : α} {r r' : Except SyntaxError α} (h : Agree R S r r')
    (hr : r = .ok a) : ∃ b, S a b ∧ r' = .ok b := by
  cases h with
  | error => cases hr
  | @ok a' b hab =>
    cases hr
    exact ⟨b, hab, rfl⟩

/-- Results that agree also agree in a weaker relation. -/
theorem SyntaxError.Agree.imp {R : PlacedToken → PlacedToken → Prop} {α : Type}
    {S S' : α → α → Prop} {r r' : Except SyntaxError α} (h : Agree R S r r')
    (hS : ∀ {a b}, S a b → S' a b) : Agree R S' r r' := by
  cases h with
  | ok hab => exact .ok (hS hab)
  | error htu => exact .error htu

/-- Results that agree still do with related statements in front. -/
theorem SyntaxError.Agree.map_cons {R : PlacedToken → PlacedToken → Prop} {α : Type}
    {S : α → α → Prop} {r r' : Except SyntaxError (List α)} {s s' : α}
    (h : Agree R (List.Forall₂ S) r r') (hs : S s s') :
    Agree R (List.Forall₂ S) (r.map (s :: ·)) (r'.map (s' :: ·)) := by
  cases h with
  | ok hss => exact .ok (.cons hs hss)
  | error hR => exact .error hR

/-! ## Parts of statements -/

section

variable {R : PlacedToken → PlacedToken → Prop} (hR : ∀ t u, R t u → t.ReadAlike u)
include hR

/-- Tokens that no reading can tell apart are both bare words, or neither is. -/
theorem isWord_alike {t u : PlacedToken} (h : R t u) : t.isWord = u.isWord := by
  rw [PlacedToken.isWord, PlacedToken.isWord, (hR t u h).kind]

/-- Tokens that no reading can tell apart both end their line, or neither does. -/
theorem endsLine_alike {t u : PlacedToken} (h : R t u) : t.endsLine = u.endsLine := by
  rw [PlacedToken.endsLine, PlacedToken.endsLine, (hR t u h).kind]

/-- Bare words that no reading can tell apart hold the same text. -/
theorem value_alike {t u : PlacedToken} (h : R t u) (hw : t.isWord = true) : t.value = u.value := by
  apply (hR t u h).value
  rw [PlacedToken.isWord_iff.1 hw]
  rfl

/-- Tokens that no reading can tell apart are spelled alike. -/
theorem spelling_alike {t u : PlacedToken} (h : R t u) : t.spelling = u.spelling := by
  have ha := hR t u h
  rw [Token.spelling, Token.spelling, ← ha.kind]
  cases hs : t.kind.spelling? with
  | none => exact ha.value hs
  | some _ => rfl

/-- Tokens in step have the same words in front, and tokens in step behind these. -/
theorem words_alike {ts us : List PlacedToken} (h : List.Forall₂ R ts us) :
    frontWords ts = frontWords us ∧ List.Forall₂ R (afterWords ts) (afterWords us) := by
  induction h with
  | nil => exact ⟨rfl, .nil⟩
  | @cons t u ts us htu hrest ih =>
    have hword := isWord_alike hR htu
    cases hu : u.isWord with
    | false =>
      rw [hu] at hword
      exact ⟨by simp [frontWords, hu, hword], by simp [afterWords, hu, hword, htu, hrest]⟩
    | true =>
      rw [hu] at hword
      have hvalue := value_alike hR htu hword
      obtain ⟨hfront, hafter⟩ := ih
      refine ⟨?_, by simpa [afterWords, hu, hword] using hafter⟩
      simp only [frontWords] at hfront
      simp [frontWords, hu, hword, hvalue, hfront]

/-- Tokens in step have clauses in front that come to the same, and tokens in step behind these. -/
theorem clausesAfter_alike (kept : Option Redirection) (ts : List PlacedToken) :
    ∀ us, List.Forall₂ R ts us →
      (Redirection.clausesAfter kept ts).redirection =
          (Redirection.clausesAfter kept us).redirection ∧
        List.Forall₂ R (Redirection.clausesAfter kept ts).rest
          (Redirection.clausesAfter kept us).rest := by
  fun_induction Redirection.clausesAfter kept ts with
  | case1 kept =>
    intro us h
    cases h
    exact ⟨rfl, .nil⟩
  | case2 kept marker ts hm =>
    intro us h
    cases h with
    | cons htu hrest =>
      have hm' := (hR _ _ htu).kind ▸ hm
      simp [Redirection.clausesAfter, hm', htu, hrest]
  | case3 kept marker kind hm =>
    -- a marker that is the last token
    intro us h
    cases h with
    | cons htu hrest =>
      cases hrest
      have hm' := (hR _ _ htu).kind ▸ hm
      simp [Redirection.clausesAfter, hm', htu]
  | case4 kept marker kind hm target rest ht later ih =>
    intro us h
    cases h with
    | cons htu hrest =>
      cases hrest with
      | cons hword hrest =>
        have hm' := (hR _ _ htu).kind ▸ hm
        have ht' := isWord_alike hR hword ▸ ht
        have hvalue := value_alike hR hword ht
        simpa [Redirection.clausesAfter, hm', ht', ← hvalue] using ih _ hrest
  | case5 kept marker kind hm target rest ht =>
    -- a marker before a token that is no word
    intro us h
    cases h with
    | cons htu hrest =>
      cases hrest with
      | cons hword hrest =>
        have hm' := (hR _ _ htu).kind ▸ hm
        have ht' := isWord_alike hR hword ▸ ht
        simp [Redirection.clausesAfter, hm', ht', htu, hword, hrest]

/-- Tokens in step make the same comment, and have tokens in step behind it. -/
theorem comment_alike {ts us : List PlacedToken} (h : List.Forall₂ R ts us) :
    (ts.takeWhile (!·.endsLine)).map (·.spelling) = (us.takeWhile (!·.endsLine)).map (·.spelling) ∧
      List.Forall₂ R (ts.dropWhile (!·.endsLine)) (us.dropWhile (!·.endsLine)) := by
  induction h with
  | nil => exact ⟨rfl, .nil⟩
  | @cons t u ts us htu hrest ih =>
    have hend := endsLine_alike hR htu
    cases hu : u.endsLine with
    | true =>
      rw [hu] at hend
      simp [hu, hend, htu, hrest]
    | false =>
      rw [hu] at hend
      have hspell := spelling_alike hR htu
      simpa [hu, hend, hspell] using ih

/-! ## Statements -/

namespace Statement

/-- A statement with one operand is read in step, if what makes it does not look at the head. -/
theorem readOperand_inStep {make make' : Text → Statement}
    (hmake : ∀ v, make v = make' v ∧ (make v).unknown? = none) {t u : PlacedToken} (htu : R t u)
    {ts us : List PlacedToken} (h : List.Forall₂ R ts us) :
    SyntaxError.Agree R (InStep R) (readOperand make t ts).result
        (readOperand make' u us).result ∧
      List.Forall₂ R (readOperand make t ts).rest (readOperand make' u us).rest := by
  cases h with
  | nil => exact ⟨.ok (.unknown htu), .nil⟩
  | @cons t' u' ts us hword hrest =>
    have hw := isWord_alike hR hword
    rw [readOperand, readOperand, ← hw]
    split
    · next ht =>
      rw [← value_alike hR hword ht, ← (hmake _).1]
      exact ⟨.ok (.same (hmake _).2), hrest⟩
    · exact ⟨.ok (.unknown htu), .cons hword hrest⟩

/-- One statement is read in lock-step. -/
theorem read_inStep {t u : PlacedToken} (htu : R t u) {ts us : List PlacedToken}
    (h : List.Forall₂ R ts us) :
    SyntaxError.Agree R (InStep R) (read t ts).result (read u us).result ∧
      List.Forall₂ R (read t ts).rest (read u us).rest := by
  obtain ⟨hfront, hafter⟩ := words_alike hR h
  have ha := hR t u htu
  have hku : u.kind = t.kind := ha.kind.symm
  cases hk : t.kind with
  | word =>
    have hvalue := value_alike hR htu (PlacedToken.isWord_iff.2 hk)
    simp only [read, hku, hk, readCommand, Reading.done, hfront, hvalue]
    exact ⟨.ok (.same rfl), hafter⟩
  | echo =>
    have hflag := ha.flag (by rw [hk]; rfl)
    obtain ⟨hred, hrest⟩ := clausesAfter_alike hR none _ _ hafter
    simp only [read, hku, hk, readEcho, Redirection.clauses, hfront, hflag, hred]
    exact ⟨.ok (.same rfl), hrest⟩
  | echoLine =>
    have hflag := ha.flag (by rw [hk]; rfl)
    obtain ⟨hred, hrest⟩ := clausesAfter_alike hR none _ _ h
    simp only [read, hku, hk, readEchoLine, Redirection.clauses, hflag, hred]
    exact ⟨.ok (.same rfl), hrest⟩
  | exit =>
    have hflag := ha.flag (by rw [hk]; rfl)
    simp only [read, hku, hk, readExit, Reading.done, hfront, hflag]
    exact ⟨.ok (.same rfl), hafter⟩
  | set =>
    have hflag := ha.flag (by rw [hk]; rfl)
    simp only [read, hku, hk, readSet, hfront, hflag]
    cases Assignment.ofText? (Text.joinWords (frontWords us)) with
    | none => exact ⟨.error htu, hafter⟩
    | some a => exact ⟨.ok (.same rfl), hafter⟩
  | goto =>
    -- the statements with one operand keep the head where the operand is missing
    have hflag := ha.flag (by rw [hk]; rfl)
    simp only [read, hku, hk, readGoto]
    exact readOperand_inStep hR (fun _ => ⟨by rw [hflag], rfl⟩) htu h
  | label =>
    simp only [read, hku, hk, readLabel]
    exact readOperand_inStep hR (fun _ => ⟨rfl, rfl⟩) htu h
  | redirect kind =>
    simp only [read, hku, hk, readRedirect]
    exact readOperand_inStep hR (fun _ => ⟨rfl, rfl⟩) htu h
  | rem =>
    obtain ⟨htext, hrest⟩ := comment_alike hR h
    simp only [read, hku, hk, readRem, Reading.done, htext]
    exact ⟨.ok (.same rfl), hrest⟩
  | newLine | andIfSuccess | andAlways =>
    simp only [read, hku, hk, Reading.done]
    exact ⟨.ok (.same rfl), h⟩
  | pipe | input | other _ =>
    simp only [read, hku, hk, readUnknown]
    exact ⟨.ok (.unknown htu), h⟩

end Statement

/-! ## Scripts -/

/-- Related tokens are read as related statements, or fail at related tokens. -/
theorem Script.read_inStep : ∀ (ts us : List PlacedToken), List.Forall₂ R ts us →
    SyntaxError.Agree R (List.Forall₂ (Statement.InStep R)) (read ts).result (read us).result
  | [], us => by
    intro h
    cases h
    rw [read]
    exact .ok .nil
  | t :: ts, us => by
    intro h
    obtain ⟨u, us, htu, hrest, rfl⟩ : ∃ u us', R t u ∧ List.Forall₂ R ts us' ∧ us = u :: us' := by
      cases h with
      | cons htu hrest => exact ⟨_, _, htu, hrest, rfl⟩
    obtain ⟨hfirst, hlater⟩ := Statement.read_inStep hR htu hrest
    have hlen := (Statement.read_suffix t ts).length_le
    have ih := read_inStep _ _ hlater
    -- the two results are named, so that the relation between them can be taken apart
    generalize hrt : (Statement.read t ts).result = first at hfirst
    generalize hru : (Statement.read u us).result = first' at hfirst
    cases hfirst with
    | error hheads =>
      rw [read_cons_of_error hrt, read_cons_of_error hru]
      exact .error hheads
    | ok hs =>
      rw [read_cons_of_ok hrt, read_cons_of_ok hru]
      exact ih.map_cons hs
  termination_by ts => ts.length
  decreasing_by simp only [List.length_cons]; omega

/-- Scripts of tokens in step are read alike. -/
theorem Script.read_alike (ts us : List PlacedToken) (h : List.Forall₂ R ts us) :
    SyntaxError.Agree R (List.Forall₂ (Statement.Alike R)) (read ts).result (read us).result :=
  (read_inStep hR ts us h).imp fun hss => hss.imp fun _ _ hs => hs.alike

end

/-! ## Without a relation -/

/-- Two tokens at one index of two lists. -/
def AtOneIndex (ts us : List PlacedToken) (t u : PlacedToken) : Prop :=
  ∃ i : Nat, ts[i]? = some t ∧ us[i]? = some u

/-- Tokens in step are related index by index. -/
theorem forall₂_atOneIndex {R : PlacedToken → PlacedToken → Prop} {ts us : List PlacedToken}
    (h : List.Forall₂ R ts us) :
    List.Forall₂ (fun t u => R t u ∧ AtOneIndex ts us t u) ts us := by
  obtain ⟨hlen, hR⟩ := List.forall₂_iff_get.1 h
  refine List.forall₂_iff_get.2 ⟨hlen, fun i hi hi' => ⟨hR i hi hi', i, ?_, ?_⟩⟩
  · exact List.getElem?_eq_getElem hi
  · exact List.getElem?_eq_getElem hi'

/-- **Readings do not depend on places, on spellings of fixed words, or on flags that no statement
shows.** Tokens that agree in all the rest are read in lock-step. Either both readings fail, at
tokens of one index, or both succeed with as many statements: a statement that keeps a token has one
beside it that keeps the token of the same index, and every other one is equal to the one beside
it. -/
theorem Script.read_lockstep {ts us : List PlacedToken}
    (h : List.Forall₂ PlacedToken.ReadAlike ts us) :
    (∃ t u, AtOneIndex ts us t u ∧
      (read ts).result = .error (.invalidAssignment t.line t.column) ∧
      (read us).result = .error (.invalidAssignment u.line u.column)) ∨
    ∃ ss ss', (read ts).result = .ok ss ∧ (read us).result = .ok ss' ∧
      List.Forall₂ (Statement.InStep (AtOneIndex ts us)) ss ss' := by
  have hagree := read_inStep (fun _ _ htu => htu.1) ts us (forall₂_atOneIndex h)
  generalize (read ts).result = r at hagree ⊢
  generalize (read us).result = r' at hagree ⊢
  cases hagree with
  | @error t u htu => exact Or.inl ⟨t, u, htu.2, rfl, rfl⟩
  | @ok ss ss' hss =>
    refine Or.inr ⟨ss, ss', rfl, rfl, hss.imp fun s s' hs => ?_⟩
    cases hs with
    | same hnone => exact .same hnone
    | unknown htu => exact .unknown htu.2

/-- The places may differ, the spellings of keywords and operators, and the flags of words, pipes,
comments and line breaks. -/
theorem Script.read_lockstep_two_lines :
    let ts : List PlacedToken :=
      [⟨⟨.echo, "echo".text⟩, true, 1, 2⟩, ⟨⟨.word, ['a']⟩, true, 1, 7⟩,
        ⟨⟨.pipe, ['|']⟩, true, 1, 9⟩, ⟨⟨.rem, "rem".text⟩, true, 1, 11⟩,
        ⟨⟨.set, "set".text⟩, true, 1, 15⟩, ⟨⟨.newLine, ['\n']⟩, true, 1, 18⟩,
        ⟨⟨.goto, "goto".text⟩, false, 2, 1⟩, ⟨⟨.word, ['x']⟩, false, 2, 6⟩]
    let us : List PlacedToken :=
      [⟨⟨.echo, "ECHO".text⟩, true, 7, 1⟩, ⟨⟨.word, ['a']⟩, false, 7, 6⟩,
        ⟨⟨.pipe, "pipe".text⟩, false, 8, 1⟩, ⟨⟨.rem, "REM".text⟩, false, 8, 3⟩,
        ⟨⟨.set, "Set".text⟩, true, 8, 7⟩, ⟨⟨.newLine, ['\r']⟩, false, 8, 10⟩,
        ⟨⟨.goto, "GoTo".text⟩, false, 0, 0⟩, ⟨⟨.word, ['x']⟩, true, 0, 0⟩]
    List.Forall₂ PlacedToken.ReadAlike ts us ∧
      ((∃ t u, AtOneIndex ts us t u ∧
        (read ts).result = .error (.invalidAssignment t.line t.column) ∧
        (read us).result = .error (.invalidAssignment u.line u.column)) ∨
      ∃ ss ss', (read ts).result = .ok ss ∧ (read us).result = .ok ss' ∧
        List.Forall₂ (Statement.InStep (AtOneIndex ts us)) ss ss') := by
  intro ts us
  have halike : List.Forall₂ PlacedToken.ReadAlike ts us := by
    repeat' constructor
    all_goals decide
  exact ⟨halike, read_lockstep halike⟩

end BatchScript
