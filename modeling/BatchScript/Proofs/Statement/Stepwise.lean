import BatchScript.Proofs.Statement.Grammar
import BatchScript.Token.Stream

/-!
# Reading token by token

Statements are read from lists, where nothing can go wrong but an assignment. Here they are read
from a stream, one token after the other. A token is looked at before it is taken; taking one fails
at the end of the stream; and what the kind of a token stands for is looked up in tables that do not
have every kind.

> `popScript_agrees`: token by token a script is read as its list of tokens is. So no token is taken
> past the end, and no table lacks the kind that is looked up;
> `words_eq_popWords`, `popStatement_agrees_statement`, `script_of_next`: calls for words, for one
> statement and for all of them.
-/

namespace BatchScript

namespace Token

namespace Stream

/-- Why a reading token by token stops. -/
inductive Fault where
  /-- A token is taken at the end of the stream. -/
  | pastEnd (fault : PastEnd)
  /-- A table has no entry for the kind of a token. -/
  | noEntry (kind : Kind)
  /-- The tokens make no script. -/
  | malformed (e : SyntaxError)

/-- The entry of a table for a kind. -/
def lookUp {α : Type} (table : Kind → Option α) (kind : Kind) : Except Fault α :=
  match table kind with
  | none => .error (.noEntry kind)
  | some a => .ok a

/-! ## What is left of a stream -/

theorem rest_eq_nil_iff {s : Stream} : s.rest = [] ↔ s.atEnd = true := by
  rw [rest, List.drop_eq_nil_iff, atEnd, decide_eq_true_iff]

theorem peek_zero (s : Stream) : s.peek 0 = s.rest.head? := by
  have hpos : ¬(s.position : Int) + 0 < 0 := by omega
  rw [peek, if_neg hpos, rest, List.head?_drop]
  rfl

theorem peek_one (s : Stream) : s.peek 1 = s.rest[1]? := by
  have hpos : ¬(s.position : Int) + 1 < 0 := by omega
  have hindex : ((s.position : Int) + 1).toNat = s.position + 1 := by omega
  rw [peek, if_neg hpos, rest, List.getElem?_drop, hindex]

/-- A stream that leaves tokens of its own has these tokens left. -/
theorem rest_leaving {s : Stream} {rest : List PlacedToken} (h : rest <:+ s.tokens) :
    (s.leaving rest).rest = rest := by
  obtain ⟨front, hfront⟩ := h
  show s.tokens.drop (s.tokens.length - rest.length) = rest
  rw [← hfront, List.length_append, Nat.add_sub_cancel, List.drop_left]

/-- What is left is the last part of the tokens. -/
theorem rest_suffix (s : Stream) : s.rest <:+ s.tokens :=
  List.drop_suffix _ _

/-- The stream behind its next token. -/
def tail (s : Stream) : Stream :=
  ⟨s.tokens, s.position + 1⟩

theorem rest_tail {s : Stream} {t : PlacedToken} {ts : List PlacedToken} (h : s.rest = t :: ts) :
    s.tail.rest = ts := by
  rw [rest, tail, ← List.tail_drop]
  show s.rest.tail = ts
  rw [h]
  rfl

/-- With a token left, a call for the next one does not fail. -/
theorem next_of_rest {s : Stream} {t : PlacedToken} {ts : List PlacedToken}
    (h : s.rest = t :: ts) : s.next = .ok (t, s.tail) := by
  have hget : s.tokens[s.position]? = some t := by
    rw [← List.head?_drop]
    show s.rest.head? = some t
    rw [h]
    rfl
  rw [next, hget]
  rfl

/-- A token is taken from what is left. -/
theorem rest_of_next {s s' : Stream} {t : PlacedToken} (h : s.next = .ok (t, s')) :
    s.rest = t :: s'.rest := by
  cases hrest : s.rest with
  | nil =>
    have hget : s.tokens[s.position]? = none := by
      rw [← List.head?_drop]
      show s.rest.head? = none
      rw [hrest]
      rfl
    rw [next, hget] at h
    cases h
  | cons u us =>
    rw [next_of_rest hrest] at h
    cases h
    rw [rest_tail hrest]

/-- Taking a token changes the position only. -/
theorem tokens_of_next {s s' : Stream} {t : PlacedToken} (h : s.next = .ok (t, s')) :
    s'.tokens = s.tokens := by
  have hrest := rest_of_next h
  rw [next_of_rest hrest] at h
  cases h
  rfl

/-- A token that is taken is no longer left. -/
theorem rest_length_of_next {s s' : Stream} {t : PlacedToken} (h : s.next = .ok (t, s')) :
    s'.rest.length < s.rest.length := by
  rw [rest_of_next h]
  exact Nat.lt_succ_self _

/-- A word in front is taken where one is asked for. -/
theorem nextIf_of_word {s : Stream} {t : PlacedToken} {ts : List PlacedToken}
    (h : s.rest = t :: ts) (ht : t.isWord = true) : s.nextIf [.word] = some (t, s.tail) := by
  have hkind := PlacedToken.isWord_iff.1 ht
  rw [nextIf, peek_zero, h]
  simp [hkind, tail]

theorem nextIf_of_not_startsWithWord {s : Stream} (h : startsWithWord s.rest = false) :
    s.nextIf [.word] = none := by
  rw [nextIf, peek_zero]
  cases hrest : s.rest with
  | nil => rfl
  | cons t ts =>
    have ht : t.kind ≠ .word := by
      rw [hrest] at h
      simpa [startsWithWord, PlacedToken.isWord] using h
    simp [ht]

theorem rest_length_of_nextIf {s s' : Stream} {t : PlacedToken}
    (h : s.nextIf [.word] = some (t, s')) : s'.rest.length < s.rest.length := by
  cases hw : startsWithWord s.rest with
  | false =>
    rw [nextIf_of_not_startsWithWord hw] at h
    cases h
  | true =>
    cases hrest : s.rest with
    | nil => simp [hrest, startsWithWord] at hw
    | cons u us =>
      rw [hrest] at hw
      rw [nextIf_of_word hrest hw] at h
      cases h
      rw [rest_tail hrest]
      exact Nat.lt_succ_self _

/-! ## The readings -/

/-- The bare words at the front. -/
def popWords (s : Stream) : List Text × Stream :=
  match _h : s.nextIf [.word] with
  | none => ([], s)
  | some (t, s') => (t.value :: s'.popWords.1, s'.popWords.2)
  termination_by s.rest.length
  decreasing_by all_goals exact rest_length_of_nextIf _h

/-- The clauses at the front, behind clauses that came to `kept`. -/
def popClauses (kept : Option Redirection) (s : Stream) :
    Except Fault (Option Redirection × Stream) :=
  match s.peek 0 with
  | none => .ok (kept, s)
  | some marker =>
    if marker.kind.redirection?.isNone then .ok (kept, s)
    else
      match s.peek 1 with
      | none => .ok (kept, s)
      | some target =>
        if target.isWord then
          match _h : s.next with
          | .error fault => .error (.pastEnd fault)
          | .ok (_, s₁) =>
            match _h₁ : s₁.next with
            | .error fault => .error (.pastEnd fault)
            | .ok (_, s₂) =>
              match lookUp Kind.redirection? marker.kind with
              | .error fault => .error fault
              | .ok kind => s₂.popClauses (some ⟨kind, target.value⟩)
        else .ok (kept, s)
  termination_by s.rest.length
  decreasing_by exact Nat.lt_trans (rest_length_of_next _h₁) (rest_length_of_next _h)

/-- The spellings of the tokens up to the end of the line. -/
def popComment (s : Stream) : Except Fault (List Text × Stream) :=
  match s.peek 0 with
  | none => .ok ([], s)
  | some t =>
    if t.endsLine then .ok ([], s)
    else
      match _h : s.next with
      | .error fault => .error (.pastEnd fault)
      | .ok (_, s') => s'.popComment.map fun (parts, last) => (t.spelling :: parts, last)
  termination_by s.rest.length
  decreasing_by exact rest_length_of_next _h

/-- A statement made of the bare word at the front; without one the head is no statement. -/
def popOperand (make : Text → Except Fault Statement) (head : PlacedToken) (s : Stream) :
    Except Fault (Statement × Stream) :=
  match s.nextIf [.word] with
  | none => .ok (.unknown head, s)
  | some (t, s') => (make t.value).map (·, s')

/-- Words and clauses to print. -/
def popEcho (head : PlacedToken) (s : Stream) : Except Fault (Statement × Stream) := do
  let (words, s) := s.popWords
  let (redirection, s) ← s.popClauses none
  return (.echo words head.invisible redirection, s)

/-- An assignment. -/
def popSet (head : PlacedToken) (s : Stream) : Except Fault (Statement × Stream) :=
  let (words, s) := s.popWords
  match Assignment.ofText? (Text.joinWords words) with
  | some a => .ok (.set a.name a.value head.invisible, s)
  | none => .error (.malformed (.invalidAssignment head.line head.column))

/-- The statements that are one token and need no other. -/
def separator? : Kind → Option Statement
  | .andIfSuccess => some .andIfSuccess
  | .andAlways => some .andAlways
  | .newLine => some .newLine
  | _ => none

/-- How to go on behind a head, for the kinds that start a statement. -/
def handler? : Kind → Option (PlacedToken → Stream → Except Fault (Statement × Stream))
  | .echo => some popEcho
  | .echoLine => some fun head s => do
    let (redirection, s) ← s.popClauses none
    return (.echoLine [Statement.emptyLineMark] head.invisible redirection, s)
  | .word => some fun head s =>
    let (words, s) := s.popWords
    .ok (.command (Text.joinWords (head.value :: words)), s)
  | .exit => some fun head s =>
    let (words, s) := s.popWords
    .ok (.exit words head.invisible, s)
  | .set => some popSet
  | .goto => some fun head => popOperand (fun v => .ok (.goto v head.invisible)) head
  | .label => some fun head => popOperand (fun v => .ok (.label v)) head
  | .rem => some fun _ s => do
    let (parts, s) ← s.popComment
    return (.rem (Text.joinWords parts), s)
  | .redirect _ => some fun head => popOperand (fun v => do
    let kind ← lookUp Kind.redirection? head.kind
    return .redirect ⟨kind, v⟩) head
  | .andIfSuccess | .andAlways | .newLine => some fun head s => do
    let statement ← lookUp separator? head.kind
    return (statement, s)
  | .pipe | .input | .other _ => none

/-- The statement with the given head; a head without an entry is no statement. -/
def popStatement (head : PlacedToken) (s : Stream) : Except Fault (Statement × Stream) :=
  match handler? head.kind with
  | some handler => handler head s
  | none => .ok (.unknown head, s)

/-! ## One statement -/

/-- A reading token by token comes to what a reading of a list comes to. -/
inductive Agrees {α : Type} : Except Fault (α × Stream) → Reading α → Prop
  | ok {a : α} {s : Stream} {r : Reading α} :
      r.result = .ok a → s.rest = r.rest → Agrees (.ok (a, s)) r
  | malformed {e : SyntaxError} {r : Reading α} :
      r.result = .error e → Agrees (.error (.malformed e)) r

/-- The agreement in full: the two fail together, with the same error and no other fault, and
succeed together with the same result. -/
theorem Agrees.error_iff {α : Type} {r : Except Fault (α × Stream)} {reading : Reading α}
    (h : Agrees r reading) (fault : Fault) :
    r = .error fault ↔ ∃ e, reading.result = .error e ∧ fault = .malformed e := by
  cases h with
  | ok hr => simp [hr]
  | malformed hr => simp [hr, eq_comm]

/-- Readings that agree give the same results. -/
theorem Agrees.ok_iff {α : Type} {r : Except Fault (α × Stream)} {reading : Reading α}
    (h : Agrees r reading) (a : α) : (∃ s, r = .ok (a, s)) ↔ reading.result = .ok a := by
  cases h with
  | ok hr => simp [hr]
  | malformed hr => simp [hr]

/-- A word in front is taken, and then the words behind it. -/
theorem popWords_of_word {s : Stream} {t : PlacedToken} {ts : List PlacedToken}
    (h : s.rest = t :: ts) (ht : t.isWord = true) :
    s.popWords = (t.value :: s.tail.popWords.1, s.tail.popWords.2) := by
  rw [popWords]
  split
  · next h' =>
    rw [nextIf_of_word h ht] at h'
    cases h'
  · next h' =>
    rw [nextIf_of_word h ht] at h'
    cases h'
    rfl

theorem popWords_of_not_startsWithWord {s : Stream} (h : startsWithWord s.rest = false) :
    s.popWords = ([], s) := by
  rw [popWords]
  split
  · rfl
  · next h' =>
    rw [nextIf_of_not_startsWithWord h] at h'
    cases h'

/-- Words are taken one by one as they stand at the front of a list. -/
theorem popWords_spec : ∀ (ts : List PlacedToken) {s : Stream}, s.rest = ts →
    s.popWords.1 = frontWords ts ∧ s.popWords.2.rest = afterWords ts
  | [], s, h => by
    rw [popWords_of_not_startsWithWord (by rw [h]; rfl)]
    exact ⟨rfl, h⟩
  | t :: ts, s, h => by
    cases ht : t.isWord with
    | false =>
      rw [popWords_of_not_startsWithWord (by rw [h]; exact ht)]
      simp [frontWords, afterWords, ht, h]
    | true =>
      obtain ⟨hwords, hrest⟩ := popWords_spec ts (rest_tail h)
      rw [popWords_of_word h ht]
      simpa [frontWords, afterWords, ht] using ⟨hwords, hrest⟩

/-- A clause in front counts in place of the one before it. -/
theorem popClauses_of_clause {s : Stream} {kept : Option Redirection} {marker target : PlacedToken}
    {kind : Redirection.Kind} {ts : List PlacedToken} (h : s.rest = marker :: target :: ts)
    (hm : marker.kind.redirection? = some kind) (ht : target.isWord = true) :
    s.popClauses kept = s.tail.tail.popClauses (some ⟨kind, target.value⟩) := by
  have hfirst := next_of_rest h
  have hsecond := next_of_rest (rest_tail h)
  rw [popClauses, peek_zero, peek_one, h]
  simp only [List.head?_cons, List.getElem?_cons_succ, List.getElem?_cons_zero, hm, ht, lookUp,
    Option.isNone_some, Bool.false_eq_true, if_true, if_false]
  split
  · next h' =>
    rw [hfirst] at h'
    cases h'
  · next h' =>
    rw [hfirst] at h'
    cases h'
    split
    · next h' =>
      rw [hsecond] at h'
      cases h'
    · next h' =>
      rw [hsecond] at h'
      cases h'
      rfl

theorem popClauses_of_not_startsWithClause {s : Stream} (kept : Option Redirection)
    (h : startsWithClause s.rest = false) : s.popClauses kept = .ok (kept, s) := by
  rw [popClauses, peek_zero, peek_one]
  cases hrest : s.rest with
  | nil => rfl
  | cons marker ts =>
    simp only [List.head?_cons, List.getElem?_cons_succ]
    split
    · rfl
    · next hm =>
      cases ts with
      | nil => rfl
      | cons target ts =>
        have hnot : target.isWord = false := by
          rw [hrest, startsWithClause] at h
          cases hkind : marker.kind.redirection? with
          | none => simp [hkind] at hm
          | some kind => simpa [hkind] using h
        simp only [List.getElem?_cons_zero, hnot, Bool.false_eq_true, if_false]

/-- Clauses are taken one by one as they stand at the front of a list. -/
theorem popClauses_spec : ∀ (ts : List PlacedToken) (kept : Option Redirection) {s : Stream},
    s.rest = ts →
      ∃ s', s.popClauses kept = .ok ((Redirection.clausesAfter kept ts).redirection, s') ∧
        s'.rest = (Redirection.clausesAfter kept ts).rest
  | marker :: target :: ts, kept, s, h => by
    cases hclause : startsWithClause (marker :: target :: ts) with
    | false =>
      obtain ⟨hred, hrest⟩ := Redirection.clausesAfter_of_not_startsWithClause kept hclause
      rw [popClauses_of_not_startsWithClause kept (by rw [h]; exact hclause), hred, hrest]
      exact ⟨s, rfl, h⟩
    | true =>
      -- two tokens are taken, and the clause is kept in place of the one before it
      rw [startsWithClause, Bool.and_eq_true, Option.isSome_iff_exists] at hclause
      obtain ⟨⟨kind, hm⟩, ht⟩ := hclause
      obtain ⟨s', hpop, hrest⟩ :=
        popClauses_spec ts (some ⟨kind, target.value⟩) (rest_tail (rest_tail h))
      refine ⟨s', ?_, ?_⟩
      · rw [popClauses_of_clause h hm ht, hpop]
        simp [Redirection.clausesAfter, hm, ht]
      · simpa [Redirection.clausesAfter, hm, ht] using hrest
  | [marker], kept, s, h => by
    have hclause : startsWithClause [marker] = false := rfl
    obtain ⟨hred, hrest⟩ := Redirection.clausesAfter_of_not_startsWithClause kept hclause
    rw [popClauses_of_not_startsWithClause kept (by rw [h]; exact hclause), hred, hrest]
    exact ⟨s, rfl, h⟩
  | [], kept, s, h => by
    rw [popClauses_of_not_startsWithClause kept (by rw [h]; rfl)]
    exact ⟨s, rfl, h⟩

/-- The rest of a line is taken one by one. -/
theorem popComment_spec : ∀ (ts : List PlacedToken) {s : Stream}, s.rest = ts →
    ∃ s', s.popComment = .ok ((ts.takeWhile (!·.endsLine)).map (·.spelling), s') ∧
      s'.rest = ts.dropWhile (!·.endsLine)
  | [], s, h => by
    rw [popComment, peek_zero, h]
    exact ⟨s, rfl, h⟩
  | t :: ts, s, h => by
    cases ht : t.endsLine with
    | true =>
      rw [popComment, peek_zero, h]
      simp [ht, h]
    | false =>
      -- a token is seen here, so it is taken with no fault
      obtain ⟨s', hpop, hrest⟩ := popComment_spec ts (rest_tail h)
      refine ⟨s', ?_, by simpa [ht] using hrest⟩
      have hnext := next_of_rest h
      rw [popComment, peek_zero, h]
      simp only [List.head?_cons, ht, Bool.false_eq_true, if_false]
      split
      · next h' =>
        rw [hnext] at h'
        cases h'
      · next h' =>
        rw [hnext] at h'
        cases h'
        rw [hpop]
        simp [Except.map, ht]

/-- An operand is taken as it stands at the front of a list. -/
theorem popOperand_agrees {make : Text → Except Fault Statement} {make' : Text → Statement}
    (hmake : ∀ v, make v = .ok (make' v)) (head : PlacedToken) (s : Stream) :
    Agrees (s.popOperand make head) (Statement.readOperand make' head s.rest) := by
  rw [popOperand]
  cases hw : startsWithWord s.rest with
  | false =>
    rw [nextIf_of_not_startsWithWord hw, Statement.readOperand_unknown make' head hw]
    exact .ok rfl rfl
  | true =>
    cases hrest : s.rest with
    | nil => simp [hrest, startsWithWord] at hw
    | cons t ts =>
      rw [hrest] at hw
      rw [nextIf_of_word hrest hw, Statement.readOperand_word make' head ts hw]
      simp only [hmake]
      exact .ok rfl (rest_tail hrest)

/-- A statement is read token by token as it is read from a list. -/
theorem popStatement_agrees (head : PlacedToken) (s : Stream) :
    Agrees (s.popStatement head) (Statement.read head s.rest) := by
  obtain ⟨hwords, hafter⟩ := popWords_spec s.rest rfl
  cases hk : head.kind with
  | word =>
    simp only [popStatement, hk, handler?, Statement.read, Statement.readCommand, hwords]
    exact .ok rfl hafter
  | echo =>
    obtain ⟨s', hpop, hrest⟩ := popClauses_spec _ none hafter
    simp only [popStatement, hk, handler?, popEcho, Statement.read, Statement.readEcho, hwords,
      hpop]
    exact .ok rfl hrest
  | echoLine =>
    obtain ⟨s', hpop, hrest⟩ := popClauses_spec s.rest none rfl
    simp only [popStatement, hk, handler?, Statement.read, Statement.readEchoLine, hpop]
    exact .ok rfl hrest
  | exit =>
    simp only [popStatement, hk, handler?, Statement.read, Statement.readExit, hwords]
    exact .ok rfl hafter
  | set =>
    -- the only statement that fails, and both fail with the same error
    simp only [popStatement, hk, handler?, popSet, Statement.read, Statement.readSet, hwords]
    cases Assignment.ofText? (Text.joinWords (frontWords s.rest)) with
    | some a => exact .ok rfl hafter
    | none => exact .malformed rfl
  | goto =>
    simp only [popStatement, hk, handler?, Statement.read, Statement.readGoto]
    exact popOperand_agrees (fun _ => rfl) head s
  | label =>
    simp only [popStatement, hk, handler?, Statement.read, Statement.readLabel]
    exact popOperand_agrees (fun _ => rfl) head s
  | redirect kind =>
    simp only [popStatement, hk, handler?, Statement.read, Statement.readRedirect]
    exact popOperand_agrees (fun _ => rfl) head s
  | rem =>
    obtain ⟨s', hpop, hrest⟩ := popComment_spec s.rest rfl
    simp only [popStatement, hk, handler?, Statement.read, Statement.readRem, hpop]
    exact .ok rfl hrest
  | newLine | andIfSuccess | andAlways =>
    simp only [popStatement, hk, handler?, Statement.read]
    exact .ok rfl rfl
  | pipe | input | other _ =>
    simp only [popStatement, hk, handler?, Statement.read, Statement.readUnknown]
    exact .ok rfl rfl

/-- What is left behind a statement is no more than was there. -/
theorem rest_length_of_popStatement {head : PlacedToken} {s s' : Stream} {statement : Statement}
    (h : s.popStatement head = .ok (statement, s')) : s'.rest.length ≤ s.rest.length := by
  have hagrees := popStatement_agrees head s
  rw [h] at hagrees
  cases hagrees with
  | ok _ hrest =>
    rw [hrest]
    exact (Statement.read_suffix head s.rest).length_le

/-! ## Whole scripts -/

/-- The statements of a stream, one after the other. -/
def popScript (s : Stream) : Except Fault (List Statement × Stream) :=
  if s.atEnd then .ok ([], s)
  else
    match _h : s.next with
    | .error fault => .error (.pastEnd fault)
    | .ok (head, s₁) =>
      match _h₁ : s₁.popStatement head with
      | .error fault => .error fault
      | .ok (statement, s₂) =>
        s₂.popScript.map fun (later, last) => (statement :: later, last)
  termination_by s.rest.length
  decreasing_by
    exact Nat.lt_of_le_of_lt (rest_length_of_popStatement _h₁) (rest_length_of_next _h)

/-- Readings of later statements that agree still do with a statement in front. -/
theorem Agrees.map_cons {r : Except Fault (List Statement × Stream)}
    {later : Reading (List Statement)} (h : Agrees r later) (statement : Statement)
    (log : List Log.Entry) :
    Agrees (r.map fun (ss, last) => (statement :: ss, last))
      ⟨later.result.map (statement :: ·), later.rest, log⟩ := by
  cases h with
  | ok hr hlast => exact .ok (by rw [hr]; rfl) hlast
  | malformed hr => exact .malformed (by rw [hr]; rfl)

/-- Token by token a script is read as its list of tokens is. -/
theorem popScript_agrees : ∀ (ts : List PlacedToken) {s : Stream}, s.rest = ts →
    Agrees s.popScript (Script.read ts)
  | [], s, h => by
    rw [popScript, if_pos (rest_eq_nil_iff.1 h), Script.read]
    exact .ok rfl h
  | head :: ts, s, h => by
    have hend : ¬s.atEnd = true := by
      rw [← rest_eq_nil_iff, h]
      exact List.cons_ne_nil head ts
    have hnext := next_of_rest h
    have hstatement := popStatement_agrees head s.tail
    rw [rest_tail h] at hstatement
    -- the tokens that a statement leaves are fewer, which the recursion needs
    have hlen := (Statement.read_suffix head ts).length_le
    rw [popScript, if_neg hend, Script.read]
    split
    · -- a token is left, so it is not taken past the end
      next h' =>
      rw [hnext] at h'
      cases h'
    · next head' s₁ h' =>
      rw [hnext] at h'
      cases h'
      split
      · next fault h₁ =>
        rw [h₁] at hstatement
        cases hstatement with
        | malformed hresult =>
          simp only [hresult]
          exact .malformed rfl
      · next statement s₂ h₁ =>
        rw [h₁] at hstatement
        cases hstatement with
        | ok hresult hrest =>
          simp only [hresult]
          exact (popScript_agrees _ hrest).map_cons statement _
  termination_by ts => ts.length
  decreasing_by simp only [List.length_cons]; omega

/-! ## Single calls -/

/-- Words are taken from the tokens of the stream, up to the end at most. -/
theorem popWords_within (s : Stream) (h : s.position ≤ s.tokens.length) :
    s.popWords.2.tokens = s.tokens ∧ s.popWords.2.position ≤ s.tokens.length := by
  cases hw : startsWithWord s.rest with
  | false =>
    rw [popWords_of_not_startsWithWord hw]
    exact ⟨rfl, h⟩
  | true =>
    cases hrest : s.rest with
    | nil => simp [hrest, startsWithWord] at hw
    | cons t ts =>
      rw [hrest] at hw
      -- a word is left, so the stream is not at its end
      have hlt : s.position < s.tokens.length := by
        rw [← Nat.not_le]
        intro hle
        rw [rest, List.drop_of_length_le hle] at hrest
        cases hrest
      have hless : s.tail.rest.length < s.rest.length := by
        rw [rest_tail hrest, hrest]
        exact Nat.lt_succ_self _
      rw [popWords_of_word hrest hw]
      exact popWords_within s.tail hlt
  termination_by s.rest.length

/-- A call for the bare words at the front takes them one by one. -/
theorem words_eq_popWords {s : Stream} (h : s.position ≤ s.tokens.length) :
    s.words = s.popWords := by
  obtain ⟨hwords, hrest⟩ := popWords_spec s.rest rfl
  obtain ⟨htokens, hwithin⟩ := popWords_within s h
  have hlast : s.leaving (afterWords s.rest) = s.popWords.2 := by
    have hposition : s.tokens.length - (s.tokens.length - s.popWords.2.position) =
        s.popWords.2.position := by omega
    rw [leaving, ← hrest, rest, htokens, List.length_drop, hposition, ← htokens]
  exact Prod.ext hwords.symm hlast

/-- A call for one statement takes it token by token. -/
theorem popStatement_agrees_statement (head : PlacedToken) (s : Stream) :
    Agrees (s.popStatement head)
      ⟨(s.statement head).1, (s.statement head).2.1.rest, (s.statement head).2.2⟩ := by
  have hrest := rest_leaving ((Statement.read_suffix head s.rest).trans s.rest_suffix)
  rw [show (s.statement head).2.1.rest = (Statement.read head s.rest).rest from hrest]
  exact popStatement_agrees head s

/-- A call for all statements is a call for the first one, and one for the others on what the first
has left. -/
theorem script_of_next {s s₁ : Stream} {head : PlacedToken} (h : s.next = .ok (head, s₁)) :
    s.script = match s₁.statement head with
      | (.error e, s₂, log) => (.error e, s₂, log)
      | (.ok statement, s₂, log) =>
        (s₂.script.1.map (statement :: ·), s₂.script.2.1, log ++ s₂.script.2.2) := by
  have hleft := rest_of_next h
  have htokens := tokens_of_next h
  have hrest : (s₁.leaving (Statement.read head s₁.rest).rest).rest =
      (Statement.read head s₁.rest).rest :=
    rest_leaving ((Statement.read_suffix head s₁.rest).trans s₁.rest_suffix)
  rw [script, take, hleft, Script.read, statement, take]
  cases hresult : (Statement.read head s₁.rest).result with
  | error e =>
    rw [leaving, leaving, htokens]
  | ok statement =>
    simp only [script, take, hrest]
    simp only [leaving, htokens]

end Stream

end Token

end BatchScript
