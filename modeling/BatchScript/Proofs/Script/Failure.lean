import Mathlib.Data.Nat.Find
import BatchScript.Proofs.Script.Outside
import BatchScript.Proofs.Statement.Stepwise

/-!
# When a script cannot be read

Statements are read in one pass, in which words, clauses and comments take tokens away from what
follows. Whether the pass fails can be told from the tokens alone: it does if one of them is an
assignment outside of comments with no equals sign in the words behind it. None of these is taken by
another statement (`not_badSet_of_madeOf`), and a statement changes nothing for those behind it
(`badSet_behind_iff`).

> `read_ends`: how a reading ends and what it leaves;
> `read_fails_iff`: a script fails at the first such assignment, and in no other way, also when it
> is read token by token.
-/

namespace BatchScript

namespace Script

/-- The assignment at an index of a list of tokens cannot be read: it stands in no comment, and the
words directly behind it hold no equals sign. -/
structure BadSet (ts : List PlacedToken) (i : Nat) (t : PlacedToken) : Prop where
  get : ts[i]? = some t
  isSet : t.kind = .set
  noComment : Token.commentOpen (ts.take i) = false
  noEquals : ∀ w ∈ (ts.drop (i + 1)).takeWhile PlacedToken.isWord, char '=' ∉ w.value

/-- The first assignment that cannot be read. -/
def FirstBadSet (ts : List PlacedToken) (i : Nat) (t : PlacedToken) : Prop :=
  BadSet ts i t ∧ ∀ j < i, ∀ u, ¬BadSet ts j u

/-- There is one first assignment that cannot be read. -/
theorem FirstBadSet.unique {ts : List PlacedToken} {i j : Nat} {t u : PlacedToken}
    (h : FirstBadSet ts i t) (h' : FirstBadSet ts j u) : i = j ∧ t = u := by
  have hij : i = j := by
    rcases Nat.lt_trichotomy i j with hlt | heq | hgt
    · exact absurd h.1 (h'.2 i hlt t)
    · exact heq
    · exact absurd h'.1 (h.2 j hgt u)
  subst hij
  exact ⟨rfl, Option.some.inj (h.1.get.symm.trans h'.1.get)⟩

/-- Among the assignments that cannot be read there is a first one. -/
theorem exists_firstBadSet {ts : List PlacedToken} (h : ∃ i t, BadSet ts i t) :
    ∃ i t, FirstBadSet ts i t := by
  classical
  obtain ⟨t, ht⟩ := Nat.find_spec h
  exact ⟨Nat.find h, t, ht, fun j hj u hu => Nat.find_min h hj ⟨u, hu⟩⟩

/-- What is wrong with an assignment that cannot be read. -/
def WithoutEquals (t : PlacedToken) (later : List PlacedToken) : Prop :=
  t.kind = .set ∧ ∀ w ∈ later.takeWhile PlacedToken.isWord, char '=' ∉ w.value

/-- An assignment that cannot be read is one outside comments without an equals sign. -/
theorem badSet_iff_outside {ts : List PlacedToken} {i : Nat} {t : PlacedToken} :
    BadSet ts i t ↔ Outside WithoutEquals ts i t :=
  ⟨fun h => ⟨h.get, h.noComment, h.isSet, h.noEquals⟩,
    fun h => ⟨h.get, h.holds.1, h.noComment, h.holds.2⟩⟩

theorem WithoutEquals.endsLine {t : PlacedToken} {later : List PlacedToken}
    (h : WithoutEquals t later) : t.endsLine = false := by
  rw [PlacedToken.endsLine, h.1]
  rfl

theorem not_badSet_nil (i : Nat) (t : PlacedToken) : ¬BadSet [] i t := by
  rw [badSet_iff_outside]
  exact not_outside_nil i t

/-! ## Statement by statement -/

section

variable {s : Statement} {head : PlacedToken} {taken rest : List PlacedToken}
  (hs : s.MadeOf (head :: taken))
include hs

/-- What is made up into a statement is no assignment that cannot be read: its head has an equals
sign, and behind its head there are assignments only if it is a comment. -/
theorem not_badSet_of_madeOf {i : Nat} {t : PlacedToken} (hi : i < (head :: taken).length) :
    ¬BadSet (head :: taken ++ rest) i t := by
  rw [badSet_iff_outside]
  intro hbad
  rcases hbad.of_madeOf hs hi with ⟨-, -, hset, hequals⟩ | ⟨hrem, before, after, rfl, hset, -⟩
  · obtain ⟨hwords, w, hw, hsign⟩ := hs.exists_equals hset
    refine hequals w ?_ hsign
    rw [List.takeWhile_append_of_pos hwords]
    exact List.mem_append_left _ hw
  · rcases hs.tail with ⟨hrem', -⟩ | ⟨-, htail⟩
    · exact hrem hrem'
    · rcases htail t (by simp) with hk | ⟨kind, hk⟩
      · rw [hk] at hset
        cases hset
      · rw [hk] at hset
        cases hset

/-- Behind a statement the same assignments cannot be read as if the tokens began there. -/
theorem badSet_behind_iff (hend : s.Before rest) {j : Nat} {t : PlacedToken} :
    BadSet (head :: taken ++ rest) ((head :: taken).length + j) t ↔ BadSet rest j t := by
  rw [badSet_iff_outside, badSet_iff_outside]
  exact outside_behind_iff hs hend WithoutEquals.endsLine

/-- The first assignment that cannot be read stands behind the statements that can. -/
theorem FirstBadSet.behind (hend : s.Before rest) {j : Nat} {t : PlacedToken}
    (h : FirstBadSet rest j t) :
    FirstBadSet (head :: taken ++ rest) ((head :: taken).length + j) t := by
  refine ⟨(badSet_behind_iff hs hend).2 h.1, fun k hk u hu => ?_⟩
  have hle : (head :: taken).length ≤ k :=
    Nat.le_of_not_lt fun hlt => not_badSet_of_madeOf hs hlt hu
  obtain ⟨l, rfl⟩ := Nat.exists_eq_add_of_le hle
  exact h.2 l (Nat.lt_of_add_lt_add_left hk) u ((badSet_behind_iff hs hend).1 hu)

end

/-! ## Whole scripts -/

/-- How a reading of tokens ends: no assignment is at fault and none of them is left, or the first
one at fault is shown and the tokens behind its words are left. -/
inductive Ends (ts : List PlacedToken) (r : Reading (List Statement)) : Prop
  | whole {ss : List Statement} :
      (∀ i t, ¬BadSet ts i t) → r.result = .ok ss → r.rest = [] → Ends ts r
  | fault {i : Nat} {t : PlacedToken} :
      FirstBadSet ts i t → r.result = .error (.invalidAssignment t.line t.column) →
        r.rest = afterWords (ts.drop (i + 1)) → Ends ts r

/-- An assignment at the front that cannot be read is the first one. -/
theorem firstBadSet_zero {head : PlacedToken} {ts : List PlacedToken}
    (h : WithoutEquals head ts) : FirstBadSet (head :: ts) 0 head :=
  ⟨badSet_iff_outside.2 (outside_zero_iff.2 ⟨rfl, h⟩), fun j hj => absurd hj (Nat.not_lt_zero j)⟩

/-- Every reading ends so. -/
theorem read_ends : ∀ ts : List PlacedToken, Ends ts (read ts)
  | [] => .whole not_badSet_nil (by rw [read]; rfl) (by rw [read]; rfl)
  | head :: ts => by
    cases hfirst : (Statement.read head ts).result with
    | error e =>
      obtain ⟨hk, hequals, rfl⟩ := Statement.read_eq_error_iff.1 hfirst
      refine .fault (firstBadSet_zero ⟨hk, hequals⟩) (read_cons_of_error hfirst) ?_
      rw [rest_read_cons_of_error hfirst]
      exact Statement.rest_of_error hfirst
    | ok s =>
      obtain ⟨taken, htaken, hs, hend⟩ := Statement.read_madeOf hfirst
      have hlen := (Statement.read_suffix head ts).length_le
      have happ : head :: ts = head :: taken ++ (Statement.read head ts).rest :=
        congrArg (head :: ·) htaken
      have hresult := read_cons_of_ok hfirst
      have hrest := rest_read_cons_of_ok hfirst
      cases read_ends (Statement.read head ts).rest with
      | whole hnone hlater hnil =>
        rw [hlater] at hresult
        refine .whole (fun i t hbad => ?_) hresult (hrest.trans hnil)
        rw [happ] at hbad
        -- an assignment at fault cannot stand in the first statement, so it is one of the later
        -- tokens
        by_cases hi : i < (head :: taken).length
        · exact not_badSet_of_madeOf hs hi hbad
        · obtain ⟨j, rfl⟩ := Nat.exists_eq_add_of_le (Nat.le_of_not_lt hi)
          exact hnone j t ((badSet_behind_iff hs hend).1 hbad)
      | @fault i t hbad hlater hleft =>
        rw [hlater] at hresult
        refine .fault (i := (head :: taken).length + i) (t := t) ?_ hresult ?_
        · rw [happ]
          exact hbad.behind hs hend
        · have hdrop : (head :: ts).drop ((head :: taken).length + i + 1) =
              (Statement.read head ts).rest.drop (i + 1) := by
            rw [happ, Nat.add_assoc, List.drop_length_add_append]
          rw [hrest, hleft, hdrop]
  termination_by ts => ts.length
  decreasing_by simp only [List.length_cons]; omega

/-- A script fails at the first assignment that cannot be read, and in no other way. -/
theorem read_eq_error_iff (ts : List PlacedToken) (e : SyntaxError) :
    (read ts).result = .error e ↔
      ∃ i t, FirstBadSet ts i t ∧ e = .invalidAssignment t.line t.column := by
  cases read_ends ts with
  | whole hnone hresult =>
    rw [hresult]
    simp [FirstBadSet, hnone]
  | @fault i t hbad hresult =>
    rw [hresult]
    constructor
    · intro h
      exact ⟨i, t, hbad, (Except.error.inj h).symm⟩
    · rintro ⟨j, u, hu, rfl⟩
      obtain ⟨-, rfl⟩ := hbad.unique hu
      rfl

/-- **A script cannot be read exactly when it holds an assignment without an equals sign outside of
comments.** The error shows the place of the first of them. A reading token by token meets this
error and no other fault: it never takes a token past the end, and its tables have every kind that
it looks up. -/
theorem read_fails_iff (ts : List PlacedToken) :
    ((∃ e, (read ts).result = .error e) ↔ ∃ i t, BadSet ts i t) ∧
      (∀ e, (read ts).result = .error e ↔
        ∃ i t, FirstBadSet ts i t ∧ e = .invalidAssignment t.line t.column) ∧
      (∀ fault, (Token.Stream.ofList ts).popScript = .error fault ↔
        ∃ i t, FirstBadSet ts i t ∧ fault = .malformed (.invalidAssignment t.line t.column)) ∧
      ∀ ss, (∃ s, (Token.Stream.ofList ts).popScript = .ok (ss, s)) ↔
        (read ts).result = .ok ss := by
  have hfirst := read_eq_error_iff ts
  have hagrees : Token.Stream.Agrees (Token.Stream.ofList ts).popScript (read ts) :=
    Token.Stream.popScript_agrees ts rfl
  refine ⟨⟨?_, ?_⟩, hfirst, fun fault => ?_, hagrees.ok_iff⟩
  · rintro ⟨e, he⟩
    obtain ⟨i, t, ht, -⟩ := (hfirst e).1 he
    exact ⟨i, t, ht.1⟩
  · intro hbad
    obtain ⟨i, t, ht⟩ := exists_firstBadSet hbad
    exact ⟨_, (hfirst _).2 ⟨i, t, ht, rfl⟩⟩
  · -- the reading token by token has this error or none
    rw [hagrees.error_iff]
    constructor
    · rintro ⟨e, he, rfl⟩
      obtain ⟨i, t, ht, rfl⟩ := (hfirst e).1 he
      exact ⟨i, t, ht, rfl⟩
    · rintro ⟨i, t, ht, rfl⟩
      exact ⟨_, (hfirst _).2 ⟨i, t, ht, rfl⟩, rfl⟩

end Script

end BatchScript
