import BatchScript.Script

/-!
# The grammar of statements

`Statement.MadeOf s ts` says which tokens a statement is made of and which of its fields each of
them gives, with no mention of how they are read. `Statement.Before s rest` says where a statement
ends: nothing follows that it would have taken as well.

Reading and grammar agree in both directions:

> `read_madeOf`: what a reading takes is what its statement is made of, and it stops where the
> statement ends;
> `read_of_madeOf`: tokens that make up a statement, before a place where it ends, are read as
> this statement and no more.

So no token is lost, read twice or moved to a neighbour, and the tokens alone give the fields.
-/

namespace BatchScript

/-! ## What a list of tokens starts with -/

/-- Whether a list of tokens starts with a bare word. -/
def startsWithWord : List PlacedToken → Bool
  | [] => false
  | t :: _ => t.isWord

/-- Whether a list of tokens starts with a redirection clause. -/
def startsWithClause : List PlacedToken → Bool
  | marker :: target :: _ => marker.kind.redirection?.isSome && target.isWord
  | _ => false

/-- Whether no token is left on the line. -/
def atLineEnd : List PlacedToken → Bool
  | [] => true
  | t :: _ => t.endsLine

theorem PlacedToken.isWord_iff {t : PlacedToken} : t.isWord = true ↔ t.kind = .word := by
  rw [isWord, beq_iff_eq]

theorem startsWithWord_afterWords (ts : List PlacedToken) :
    startsWithWord (afterWords ts) = false := by
  unfold afterWords
  induction ts with
  | nil => rfl
  | cons t ts ih =>
    rw [List.dropWhile_cons]
    split
    · exact ih
    · next h => simpa [startsWithWord] using h

theorem frontWords_append {words rest : List PlacedToken} (hw : ∀ w ∈ words, w.isWord = true)
    (hr : startsWithWord rest = false) : frontWords (words ++ rest) = words.map (·.value) := by
  rw [frontWords, List.takeWhile_append_of_pos hw]
  cases rest with
  | nil => simp
  | cons t ts =>
    have ht : t.isWord = false := hr
    simp [ht]

theorem afterWords_append {words rest : List PlacedToken} (hw : ∀ w ∈ words, w.isWord = true)
    (hr : startsWithWord rest = false) : afterWords (words ++ rest) = rest := by
  rw [afterWords, List.dropWhile_append_of_pos hw]
  cases rest with
  | nil => rfl
  | cons t ts =>
    have ht : t.isWord = false := hr
    simp [ht]

theorem isWord_of_mem_takeWhile {t : PlacedToken} {ts : List PlacedToken}
    (h : t ∈ ts.takeWhile PlacedToken.isWord) : t.isWord = true :=
  List.all_eq_true.1 List.all_takeWhile t h

/-- The bare words at the front, and what is behind them, make up the tokens. -/
theorem exists_frontWords (ts : List PlacedToken) :
    ∃ words, ts = words ++ afterWords ts ∧ (∀ w ∈ words, w.isWord = true) ∧
      frontWords ts = words.map (·.value) :=
  ⟨ts.takeWhile PlacedToken.isWord, List.takeWhile_append_dropWhile.symm,
    fun _ => isWord_of_mem_takeWhile, rfl⟩

theorem atLineEnd_dropWhile (ts : List PlacedToken) :
    atLineEnd (ts.dropWhile (!·.endsLine)) = true := by
  induction ts with
  | nil => rfl
  | cons t ts ih =>
    rw [List.dropWhile_cons]
    split
    · exact ih
    · next h => simpa [atLineEnd] using h

/-! ## Redirection clauses -/

namespace Redirection

/-- Tokens that are redirection clauses, any number of them, and what they come to: the last clause
counts. -/
inductive MadeOf : Option Redirection → List PlacedToken → Prop
  | nil : MadeOf none []
  | last {marker target : PlacedToken} {kind : Kind} :
      marker.kind = .redirect kind → target.isWord = true →
      MadeOf (some ⟨kind, target.value⟩) [marker, target]
  | overridden {marker target : PlacedToken} {kind : Kind} {r : Redirection}
      {ts : List PlacedToken} :
      marker.kind = .redirect kind → target.isWord = true → MadeOf (some r) ts →
      MadeOf (some r) (marker :: target :: ts)

/-- Only the operator of a redirection announces it. -/
theorem redirection?_eq_some {kind : Token.Kind} {k : Kind} (h : kind.redirection? = some k) :
    kind = .redirect k := by
  cases kind <;> simp_all [Token.Kind.redirection?]

/-- A clause in front of clauses is overridden, unless there are none. -/
theorem MadeOf.cons {marker target : PlacedToken} {kind : Kind} {r : Option Redirection}
    {ts : List PlacedToken} (hm : marker.kind = .redirect kind) (ht : target.isWord = true)
    (h : MadeOf r ts) :
    MadeOf (some (r.getD ⟨kind, target.value⟩)) (marker :: target :: ts) := by
  cases h with
  | nil => exact .last hm ht
  | last hm' ht' => exact .overridden hm ht (.last hm' ht')
  | overridden hm' ht' h' => exact .overridden hm ht (.overridden hm' ht' h')

/-- Clauses start with no word, nor do none of them before something that starts with no word. -/
theorem MadeOf.startsWithWord_append {r : Option Redirection} {ts : List PlacedToken}
    (h : MadeOf r ts) (rest : List PlacedToken) (hr : r = none → startsWithWord rest = false) :
    startsWithWord (ts ++ rest) = false := by
  cases h with
  | nil => exact hr rfl
  | last hm => simp [startsWithWord, PlacedToken.isWord, hm]
  | overridden hm => simp [startsWithWord, PlacedToken.isWord, hm]

/-- Before tokens that start with no clause the redirection stays and nothing is taken. -/
theorem clausesAfter_of_not_startsWithClause {ts : List PlacedToken} (kept : Option Redirection)
    (h : startsWithClause ts = false) :
    (clausesAfter kept ts).redirection = kept ∧ (clausesAfter kept ts).rest = ts := by
  fun_cases clausesAfter kept ts with
  | case1 => exact ⟨rfl, rfl⟩
  | case2 => exact ⟨rfl, rfl⟩
  | case3 => exact ⟨rfl, rfl⟩
  | case4 marker kind hm target rest ht => simp [startsWithClause, hm, ht] at h
  | case5 => exact ⟨rfl, rfl⟩

/-- The clauses taken come to what their tokens say, and no clause is left behind them. -/
theorem clausesAfter_madeOf (kept : Option Redirection) (ts : List PlacedToken) :
    ∃ r taken, ts = taken ++ (clausesAfter kept ts).rest ∧ MadeOf r taken ∧
      (clausesAfter kept ts).redirection = r.or kept ∧
      startsWithClause (clausesAfter kept ts).rest = false := by
  fun_induction clausesAfter kept ts with
  | case1 kept => exact ⟨none, [], rfl, .nil, rfl, rfl⟩
  | case2 kept marker ts hm =>
    refine ⟨none, [], rfl, .nil, rfl, ?_⟩
    cases ts with
    | nil => rfl
    | cons t ts => simp [startsWithClause, hm]
  | case3 kept marker => exact ⟨none, [], rfl, .nil, rfl, rfl⟩
  | case4 kept marker kind hm target rest ht later ih =>
    -- the clause counts if no later one does
    obtain ⟨r, taken, htaken, hr, hred, hstop⟩ := ih
    refine ⟨some (r.getD ⟨kind, target.value⟩), marker :: target :: taken, ?_, ?_, ?_, hstop⟩
    · rw [List.cons_append, List.cons_append, ← htaken]
    · exact hr.cons (redirection?_eq_some hm) ht
    · rw [show ({ later with log := overriding kept marker target.value ++ later.log } :
        Clauses).redirection = later.redirection from rfl, hred]
      cases r <;> rfl
  | case5 kept marker kind hm target rest ht =>
    exact ⟨none, [], rfl, .nil, rfl, by simp [startsWithClause, ht]⟩

/-- Clauses before a place with no clause are taken, and no more. -/
theorem clausesAfter_append {r : Option Redirection} {taken rest : List PlacedToken}
    (h : MadeOf r taken) (hrest : startsWithClause rest = false) (kept : Option Redirection) :
    (clausesAfter kept (taken ++ rest)).redirection = r.or kept ∧
      (clausesAfter kept (taken ++ rest)).rest = rest := by
  induction h generalizing kept with
  | nil => exact clausesAfter_of_not_startsWithClause kept hrest
  | @last marker target kind hm ht =>
    have hrest' := clausesAfter_of_not_startsWithClause (some ⟨kind, target.value⟩) hrest
    simpa [clausesAfter, hm, ht, Token.Kind.redirection?] using hrest'
  | @overridden marker target kind r ts hm ht _ ih =>
    have hts := ih (some ⟨kind, target.value⟩)
    simpa [clausesAfter, hm, ht, Token.Kind.redirection?] using hts

end Redirection

/-! ## Assignments -/

namespace Assignment

/-- An assignment is what stands on either side of the first equals sign. -/
theorem ofText?_eq_some_iff {t : Text} {a : Assignment} :
    ofText? t = some a ↔ ∃ name value, t = name ++ char '=' :: value ∧ char '=' ∉ name ∧
      a = ⟨Text.words (side name), side value⟩ := by
  have hcut : t.takeWhile (· != char '=') ++ t.dropWhile (· != char '=') = t :=
    List.takeWhile_append_dropWhile
  constructor
  · intro h
    unfold ofText? at h
    split at h
    · cases h
    · next c value hd =>
      -- the front is as long as it can be, so an equals sign comes next
      have hc : c = '=' := by
        have hne : t.dropWhile (· != char '=') ≠ [] := by rw [hd]; exact List.cons_ne_nil _ _
        simpa [hd] using List.head_dropWhile_not (· != char '=') hne
      refine ⟨t.takeWhile (· != char '='), value, ?_, fun hmem => ?_, (Option.some.inj h).symm⟩
      · rw [hd, hc] at hcut
        exact hcut.symm
      · simpa using List.all_eq_true.1 (List.all_takeWhile (p := (· != char '=')) (l := t)) '=' hmem
  · rintro ⟨name, value, rfl, hname, rfl⟩
    have hne : ∀ c ∈ name, (c != '=') = true := by
      intro c hc
      rw [bne_iff_ne]
      rintro rfl
      exact hname hc
    rw [ofText?, List.dropWhile_append_of_pos hne, List.takeWhile_append_of_pos hne]
    simp

end Assignment

/-! ## Statements -/

namespace Token.Kind

/-- Whether a head of this kind needs a bare word behind it to be a statement. -/
def takesOperand : Kind → Bool
  | .goto | .label | .redirect _ => true
  | _ => false

/-- Whether a token of this kind starts no statement, whatever follows. -/
def startsNothing : Kind → Bool
  | .pipe | .input | .other _ => true
  | _ => false

end Token.Kind

namespace Statement

/-- The token that a statement keeps because it starts none. -/
def unknown? : Statement → Option PlacedToken
  | .unknown t => some t
  | _ => none

/-- The tokens that make up a statement. Every field comes from them. -/
inductive MadeOf : Statement → List PlacedToken → Prop
  | echo {head : PlacedToken} {words clauses : List PlacedToken} {r : Option Redirection} :
      head.kind = .echo → (∀ w ∈ words, w.isWord = true) → Redirection.MadeOf r clauses →
      MadeOf (.echo (words.map (·.value)) head.invisible r) (head :: (words ++ clauses))
  | echoLine {head : PlacedToken} {clauses : List PlacedToken} {r : Option Redirection} :
      head.kind = .echoLine → Redirection.MadeOf r clauses →
      MadeOf (.echoLine [emptyLineMark] head.invisible r) (head :: clauses)
  | exit {head : PlacedToken} {words : List PlacedToken} :
      head.kind = .exit → (∀ w ∈ words, w.isWord = true) →
      MadeOf (.exit (words.map (·.value)) head.invisible) (head :: words)
  | set {head : PlacedToken} {words : List PlacedToken} {name value : Text} :
      head.kind = .set → (∀ w ∈ words, w.isWord = true) →
      Text.joinWords (words.map (·.value)) = name ++ char '=' :: value → char '=' ∉ name →
      MadeOf (.set (Text.words (Assignment.side name)) (Assignment.side value) head.invisible)
        (head :: words)
  | command {head : PlacedToken} {words : List PlacedToken} :
      head.kind = .word → (∀ w ∈ words, w.isWord = true) →
      MadeOf (.command (Text.joinWords ((head :: words).map (·.value)))) (head :: words)
  | goto {head target : PlacedToken} :
      head.kind = .goto → target.isWord = true →
      MadeOf (.goto target.value head.invisible) [head, target]
  | label {head target : PlacedToken} :
      head.kind = .label → target.isWord = true → MadeOf (.label target.value) [head, target]
  | redirect {head target : PlacedToken} {kind : Redirection.Kind} :
      head.kind = .redirect kind → target.isWord = true →
      MadeOf (.redirect ⟨kind, target.value⟩) [head, target]
  | rem {head : PlacedToken} {line : List PlacedToken} :
      head.kind = .rem → (∀ t ∈ line, t.endsLine = false) →
      MadeOf (.rem (Text.joinWords (line.map (·.spelling)))) (head :: line)
  | andIfSuccess {head : PlacedToken} : head.kind = .andIfSuccess → MadeOf .andIfSuccess [head]
  | andAlways {head : PlacedToken} : head.kind = .andAlways → MadeOf .andAlways [head]
  | newLine {head : PlacedToken} : head.kind = .newLine → MadeOf .newLine [head]
  | unknown {head : PlacedToken} :
      (head.kind.takesOperand || head.kind.startsNothing) = true → MadeOf (.unknown head) [head]

/-- Whether a statement ends before the given tokens: they start with nothing that it would have
taken as well. -/
def Before : Statement → List PlacedToken → Prop
  | .echo _ _ none, rest => startsWithWord rest = false ∧ startsWithClause rest = false
  | .echo _ _ (some _), rest | .echoLine .., rest => startsWithClause rest = false
  | .exit .., rest | .set .., rest | .command .., rest => startsWithWord rest = false
  | .rem _, rest => atLineEnd rest = true
  | .unknown head, rest => head.kind.takesOperand = true → startsWithWord rest = false
  | _, _ => True

/-- Every statement ends where no token is left. -/
theorem before_nil (s : Statement) : s.Before [] := by
  cases s with
  | echo _ _ r => cases r <;> simp [Before, startsWithWord, startsWithClause]
  | _ => simp [Before, startsWithWord, startsWithClause, atLineEnd]

theorem ne_nil_of_madeOf {s : Statement} {ts : List PlacedToken} (h : s.MadeOf ts) : ts ≠ [] := by
  cases h <;> simp

/-- The statement that an operand makes, for a head that takes one. -/
theorem exists_operand {head : PlacedToken} (hk : head.kind.takesOperand = true) :
    ∃ make : Text → Statement, (∀ ts, read head ts = readOperand make head ts) ∧
      (∀ target : PlacedToken, target.isWord = true →
        MadeOf (make target.value) [head, target]) ∧
      ∀ v rest, (make v).Before rest := by
  cases hkind : head.kind with
  | goto =>
    exact ⟨(.goto · head.invisible), fun _ => by simp only [read, hkind, readGoto],
      fun _ ht => .goto hkind ht, fun _ _ => trivial⟩
  | label =>
    exact ⟨.label, fun _ => by simp only [read, hkind, readLabel],
      fun _ ht => .label hkind ht, fun _ _ => trivial⟩
  | redirect kind =>
    exact ⟨fun target => .redirect ⟨kind, target⟩,
      fun _ => by simp only [read, hkind, readRedirect],
      fun _ ht => .redirect hkind ht, fun _ _ => trivial⟩
  | _ => simp [hkind, Token.Kind.takesOperand] at hk

/-- A word behind a head that takes one is its operand. -/
theorem readOperand_word (make : Text → Statement) (head : PlacedToken) {target : PlacedToken}
    (rest : List PlacedToken) (ht : target.isWord = true) :
    readOperand make head (target :: rest) = .done (make target.value) rest :=
  if_pos ht

/-- Without a word behind it a head that takes one is no statement. -/
theorem readOperand_unknown (make : Text → Statement) (head : PlacedToken)
    {rest : List PlacedToken} (hr : startsWithWord rest = false) :
    readOperand make head rest = readUnknown head rest := by
  cases rest with
  | nil => rfl
  | cons t ts => exact if_neg (by rw [show t.isWord = false from hr]; exact Bool.false_ne_true)

/-- An operand is read as the grammar says. -/
theorem readOperand_madeOf {head : PlacedToken} {ts : List PlacedToken} {s : Statement}
    (hk : head.kind.takesOperand = true) (h : (read head ts).result = .ok s) :
    ∃ taken, ts = taken ++ (read head ts).rest ∧ s.MadeOf (head :: taken) ∧
      s.Before (read head ts).rest := by
  obtain ⟨make, hread, hmake, hbefore⟩ := exists_operand hk
  rw [hread] at h ⊢
  by_cases hw : startsWithWord ts = true
  · cases ts with
    | nil => cases hw
    | cons target rest =>
      rw [readOperand_word make head rest hw] at h ⊢
      cases h
      exact ⟨[target], rfl, hmake target hw, hbefore _ _⟩
  · rw [Bool.not_eq_true] at hw
    rw [readOperand_unknown make head hw] at h ⊢
    cases h
    exact ⟨[], rfl, .unknown (by rw [hk]; rfl), fun _ => hw⟩

/-- What a reading takes is what its statement is made of, and it stops where the statement ends. -/
theorem read_madeOf {head : PlacedToken} {ts : List PlacedToken} {s : Statement}
    (h : (read head ts).result = .ok s) :
    ∃ taken, ts = taken ++ (read head ts).rest ∧ s.MadeOf (head :: taken) ∧
      s.Before (read head ts).rest := by
  obtain ⟨words, hts, hwords, hfront⟩ := exists_frontWords ts
  have hstop := startsWithWord_afterWords ts
  cases hk : head.kind with
  | word =>
    simp only [read, hk, readCommand, Reading.done] at h ⊢
    cases h
    refine ⟨words, hts, ?_, hstop⟩
    rw [hfront]
    exact .command hk hwords
  | echo =>
    simp only [read, hk, readEcho, Redirection.clauses] at h ⊢
    obtain ⟨r, taken, htaken, hr, hred, hend⟩ :=
      Redirection.clausesAfter_madeOf none (afterWords ts)
    rw [Option.or_none] at hred
    cases h
    rw [hred, hfront]
    refine ⟨words ++ taken, ?_, .echo hk hwords hr, ?_⟩
    · rw [List.append_assoc, ← htaken]
      exact hts
    · cases r with
      | some _ => exact hend
      | none =>
        -- no clause was taken, so the words end where the statement does
        refine ⟨?_, hend⟩
        cases hr
        rw [List.nil_append] at htaken
        rw [← htaken]
        exact hstop
  | echoLine =>
    simp only [read, hk, readEchoLine, Redirection.clauses] at h ⊢
    obtain ⟨r, taken, htaken, hr, hred, hend⟩ := Redirection.clausesAfter_madeOf none ts
    rw [Option.or_none] at hred
    cases h
    rw [hred]
    exact ⟨taken, htaken, .echoLine hk hr, hend⟩
  | exit =>
    simp only [read, hk, readExit, Reading.done] at h ⊢
    cases h
    refine ⟨words, hts, ?_, hstop⟩
    rw [hfront]
    exact .exit hk hwords
  | set =>
    simp only [read, hk, readSet, hfront] at h ⊢
    cases ha : Assignment.ofText? (Text.joinWords (words.map (·.value))) with
    | none =>
      rw [ha] at h
      cases h
    | some a =>
      obtain ⟨name, value, hjoin, hname, rfl⟩ := Assignment.ofText?_eq_some_iff.1 ha
      rw [ha] at h
      cases h
      exact ⟨words, hts, .set hk hwords hjoin hname, hstop⟩
  | goto | label | redirect _ => exact readOperand_madeOf (by rw [hk]; rfl) h
  | rem =>
    simp only [read, hk, readRem, Reading.done] at h ⊢
    cases h
    refine ⟨ts.takeWhile (!·.endsLine), List.takeWhile_append_dropWhile.symm, .rem hk ?_,
      atLineEnd_dropWhile ts⟩
    intro t ht
    simpa using List.all_eq_true.1 List.all_takeWhile t ht
  | newLine =>
    simp only [read, hk, Reading.done] at h ⊢
    cases h
    exact ⟨[], rfl, .newLine hk, trivial⟩
  | andIfSuccess =>
    simp only [read, hk, Reading.done] at h ⊢
    cases h
    exact ⟨[], rfl, .andIfSuccess hk, trivial⟩
  | andAlways =>
    simp only [read, hk, Reading.done] at h ⊢
    cases h
    exact ⟨[], rfl, .andAlways hk, trivial⟩
  | pipe | input | other _ =>
    simp only [read, hk, readUnknown] at h ⊢
    cases h
    refine ⟨[], rfl, .unknown (by rw [hk]; rfl), fun hop => ?_⟩
    simp [hk, Token.Kind.takesOperand] at hop

/-- Tokens that make up a statement, before a place where it ends, are read as this statement and no
more. -/
theorem read_of_madeOf {head : PlacedToken} {taken rest : List PlacedToken} {s : Statement}
    (hs : s.MadeOf (head :: taken)) (hrest : s.Before rest) :
    (read head (taken ++ rest)).result = .ok s ∧ (read head (taken ++ rest)).rest = rest := by
  cases hs with
  | @echo _ words clauses r hk hwords hr =>
    have hclause : startsWithClause rest = false := by
      cases r with
      | none => exact hrest.2
      | some _ => exact hrest
    -- the words run up to the first clause, or to the end of the statement
    have hword : startsWithWord (clauses ++ rest) = false := by
      apply hr.startsWithWord_append
      rintro rfl
      exact hrest.1
    obtain ⟨hred, hend⟩ := Redirection.clausesAfter_append hr hclause none
    rw [List.append_assoc]
    simp [read, hk, readEcho, Redirection.clauses, frontWords_append hwords hword,
      afterWords_append hwords hword, hred, hend]
  | echoLine hk hr =>
    obtain ⟨hred, hend⟩ := Redirection.clausesAfter_append hr hrest none
    simp [read, hk, readEchoLine, Redirection.clauses, hred, hend]
  | exit hk hwords =>
    simp [read, hk, readExit, Reading.done, frontWords_append hwords hrest,
      afterWords_append hwords hrest]
  | set hk hwords hjoin hname =>
    have ha := Assignment.ofText?_eq_some_iff.2 ⟨_, _, hjoin, hname, rfl⟩
    simp [read, hk, readSet, Reading.done, frontWords_append hwords hrest,
      afterWords_append hwords hrest, ha]
  | command hk hwords =>
    simp [read, hk, readCommand, Reading.done, frontWords_append hwords hrest,
      afterWords_append hwords hrest]
  | goto hk ht => simp [read, hk, readGoto, readOperand, ht, Reading.done]
  | label hk ht => simp [read, hk, readLabel, readOperand, ht, Reading.done]
  | redirect hk ht => simp [read, hk, readRedirect, readOperand, ht, Reading.done]
  | rem hk hline =>
    have hinside : ∀ t ∈ taken, (!t.endsLine) = true := fun t ht => by rw [hline t ht]; rfl
    have hstop : rest.takeWhile (!·.endsLine) = [] ∧ rest.dropWhile (!·.endsLine) = rest := by
      cases rest with
      | nil => exact ⟨rfl, rfl⟩
      | cons t ts =>
        have ht : t.endsLine = true := hrest
        simp [ht]
    simp only [read, hk, readRem, Reading.done, List.takeWhile_append_of_pos hinside,
      List.dropWhile_append_of_pos hinside, hstop, List.append_nil, and_self]
  | andIfSuccess hk => simp [read, hk, Reading.done]
  | andAlways hk => simp [read, hk, Reading.done]
  | newLine hk => simp [read, hk, Reading.done]
  | unknown hk =>
    by_cases hop : head.kind.takesOperand = true
    · -- its operand is missing, which is the only way for such a head to be no statement
      obtain ⟨make, hread, -, -⟩ := exists_operand hop
      rw [List.nil_append, hread, readOperand_unknown make head (hrest hop)]
      exact ⟨rfl, rfl⟩
    · have hread : read head rest = readUnknown head rest := by
        cases hkind : head.kind <;>
          simp_all [read, Token.Kind.takesOperand, Token.Kind.startsNothing]
      rw [List.nil_append, hread]
      exact ⟨rfl, rfl⟩

end Statement

/-! ## Scripts -/

namespace Script

/-- The tokens that make up a list of statements: those of its statements in turn, where each
statement ends before the next. -/
inductive MadeOf : List Statement → List PlacedToken → Prop
  | nil : MadeOf [] []
  | cons {s : Statement} {ss : List Statement} {ts rest : List PlacedToken} :
      s.MadeOf ts → s.Before rest → MadeOf ss rest → MadeOf (s :: ss) (ts ++ rest)

/-- What makes up a statement of a script stands among its tokens, where the statement ends. -/
theorem MadeOf.exists_append {ss : List Statement} {ts : List PlacedToken} (h : MadeOf ss ts)
    {s : Statement} (hs : s ∈ ss) : ∃ before taken rest, ts = before ++ (taken ++ rest) ∧
      s.MadeOf taken ∧ s.Before rest := by
  induction h with
  | nil => cases hs
  | @cons s' ss ts rest hmade hend _ ih =>
    rcases List.mem_cons.1 hs with rfl | hs
    · exact ⟨[], ts, rest, rfl, hmade, hend⟩
    · obtain ⟨before, taken, later, rfl, htaken, hlater⟩ := ih hs
      exact ⟨ts ++ before, taken, later, (List.append_assoc ..).symm, htaken, hlater⟩

/-- What makes up a statement of a script is among its tokens. -/
theorem MadeOf.exists_tokens {ss : List Statement} {ts : List PlacedToken} (h : MadeOf ss ts)
    {s : Statement} (hs : s ∈ ss) : ∃ taken, s.MadeOf taken ∧ ∀ t ∈ taken, t ∈ ts := by
  obtain ⟨before, taken, rest, rfl, htaken, -⟩ := h.exists_append hs
  exact ⟨taken, htaken, fun t ht => List.mem_append_right before (List.mem_append_left rest ht)⟩

/-- A script whose first statement is read goes on with the tokens behind it. -/
theorem read_cons_of_ok {head : PlacedToken} {ts : List PlacedToken} {s : Statement}
    (h : (Statement.read head ts).result = .ok s) :
    (read (head :: ts)).result = (read (Statement.read head ts).rest).result.map (s :: ·) := by
  rw [read]
  simp only [h]

/-- Behind a statement a script leaves what the later statements leave. -/
theorem rest_read_cons_of_ok {head : PlacedToken} {ts : List PlacedToken} {s : Statement}
    (h : (Statement.read head ts).result = .ok s) :
    (read (head :: ts)).rest = (read (Statement.read head ts).rest).rest := by
  rw [read]
  simp only [h]

theorem log_read_cons_of_ok {head : PlacedToken} {ts : List PlacedToken} {s : Statement}
    (h : (Statement.read head ts).result = .ok s) :
    (read (head :: ts)).log =
      (Statement.read head ts).log ++ (read (Statement.read head ts).rest).log := by
  rw [read]
  simp only [h]

/-- A script whose first statement fails fails with it. -/
theorem read_cons_of_error {head : PlacedToken} {ts : List PlacedToken} {e : SyntaxError}
    (h : (Statement.read head ts).result = .error e) :
    (read (head :: ts)).result = .error e := by
  rw [read]
  simp only [h]

theorem rest_read_cons_of_error {head : PlacedToken} {ts : List PlacedToken} {e : SyntaxError}
    (h : (Statement.read head ts).result = .error e) :
    (read (head :: ts)).rest = (Statement.read head ts).rest := by
  rw [read]
  simp only [h]

/-- A script that is read is its first statement and the later ones. -/
theorem exists_of_read_cons_eq_ok {head : PlacedToken} {ts : List PlacedToken}
    {ss : List Statement} (h : (read (head :: ts)).result = .ok ss) :
    ∃ s later, (Statement.read head ts).result = .ok s ∧
      (read (Statement.read head ts).rest).result = .ok later ∧ ss = s :: later := by
  cases hfirst : (Statement.read head ts).result with
  | error e =>
    rw [read_cons_of_error hfirst] at h
    cases h
  | ok s =>
    rw [read_cons_of_ok hfirst] at h
    cases hlater : (read (Statement.read head ts).rest).result with
    | error e =>
      rw [hlater] at h
      cases h
    | ok later =>
      rw [hlater] at h
      cases h
      exact ⟨s, later, rfl, rfl, rfl⟩

/-- A script that fails does so in its first statement or later. -/
theorem cases_of_read_cons_eq_error {head : PlacedToken} {ts : List PlacedToken} {e : SyntaxError}
    (h : (read (head :: ts)).result = .error e) :
    (Statement.read head ts).result = .error e ∨
      ∃ s, (Statement.read head ts).result = .ok s ∧
        (read (Statement.read head ts).rest).result = .error e := by
  cases hfirst : (Statement.read head ts).result with
  | error e' =>
    rw [read_cons_of_error hfirst] at h
    cases h
    exact Or.inl rfl
  | ok s =>
    refine Or.inr ⟨s, rfl, ?_⟩
    rw [read_cons_of_ok hfirst] at h
    cases hlater : (read (Statement.read head ts).rest).result with
    | error e' =>
      rw [hlater] at h
      cases h
      rfl
    | ok later =>
      rw [hlater] at h
      cases h

/-- The tokens that have been read make up the statements. -/
theorem madeOf_of_read : ∀ (ts : List PlacedToken) {ss : List Statement},
    (read ts).result = .ok ss → MadeOf ss ts
  | [], ss => by
    intro h
    rw [read] at h
    cases h
    exact .nil
  | head :: ts, ss => by
    intro h
    obtain ⟨s, later, hfirst, hlater, rfl⟩ := exists_of_read_cons_eq_ok h
    obtain ⟨taken, htaken, hs, hend⟩ := Statement.read_madeOf hfirst
    have hlen := (Statement.read_suffix head ts).length_le
    have hmade := MadeOf.cons hs hend (madeOf_of_read _ hlater)
    rwa [List.cons_append, ← htaken] at hmade
  termination_by ts => ts.length
  decreasing_by simp only [List.length_cons]; omega

/-- A script is read from exactly the tokens that make up its statements. -/
theorem read_eq_ok_iff {ts : List PlacedToken} {ss : List Statement} :
    (read ts).result = .ok ss ↔ MadeOf ss ts := by
  constructor
  · exact madeOf_of_read ts
  · intro h
    induction h with
    | nil => simp [read, Reading.done]
    | @cons s ss ts rest hs hend _ ih =>
      obtain ⟨head, taken, rfl⟩ := List.exists_cons_of_ne_nil (Statement.ne_nil_of_madeOf hs)
      obtain ⟨hresult, hrest⟩ := Statement.read_of_madeOf hs hend
      rw [List.cons_append, read_cons_of_ok hresult, hrest, ih]
      rfl

end Script

end BatchScript
