import BatchScript.Proofs.Statement.Stepwise

/-!
# Redirection clauses in a row

Any list of tokens starts with some clauses in a row, perhaps none, and goes on with something that
is no clause. All the clauses are taken and nothing else is; the last one counts; each one that is
overridden is noted, and so is a marker behind them, which is left in place.

The clauses are data here, each with the two tokens that it is made of, so that what they come to
can be told from their list alone (`inRow`). The induction is on this list. It starts at a clause
and not at the beginning, since only a clause behind another one makes a note.

> `clauses_append`: what clauses in a row before a place with no clause come to;
> `length_le_of_append`: no other clauses are more than these;
> `Token.Stream.clauses_greedy`: the clauses that are read from a stream.
-/

namespace BatchScript

namespace Redirection

/-- A marker with the kind of redirection that it announces, and the bare word behind it. -/
structure Clause where
  marker : PlacedToken
  target : PlacedToken
  kind : Kind
  marker_kind : marker.kind = .redirect kind
  target_isWord : target.isWord = true

namespace Clause

/-- The tokens of a clause. -/
def tokens (c : Clause) : List PlacedToken :=
  [c.marker, c.target]

/-- What a clause comes to by itself. -/
def redirection (c : Clause) : Redirection :=
  ⟨c.kind, c.target.value⟩

theorem length_flatMap_tokens (cs : List Clause) : (cs.flatMap tokens).length = 2 * cs.length := by
  induction cs with
  | nil => rfl
  | cons c cs ih =>
    rw [List.flatMap_cons, List.length_append, ih, List.length_cons, tokens, List.length_cons,
      List.length_singleton]
    omega

theorem redirection?_marker (c : Clause) : c.marker.kind.redirection? = some c.kind := by
  rw [c.marker_kind]
  rfl

/-- A clause in front is the start of a clause. -/
theorem startsWithClause_tokens (c : Clause) (ts : List PlacedToken) :
    startsWithClause (c.tokens ++ ts) = true := by
  show (c.marker.kind.redirection?.isSome && c.target.isWord) = true
  rw [c.redirection?_marker, c.target_isWord]
  rfl

end Clause

/-- The redirection that clauses in a row leave in force. -/
def inForce (cs : List Clause) : Option Redirection :=
  cs.getLast?.map Clause.redirection

/-- The notes on clauses in a row: every clause but the first replaces the one before it. -/
def overridings (cs : List Clause) : List Log.Entry :=
  List.zipWith (fun c d => .overridden c.target.value d.marker d.target.value) cs cs.tail

theorem length_overridings (cs : List Clause) : (overridings cs).length = cs.length - 1 := by
  rw [overridings, List.length_zipWith, List.length_tail]
  omega

/-- The note on a marker that no word follows, if the next token is one. -/
def danglingNotes (kept : Option Redirection) (next : Option PlacedToken) : List Log.Entry :=
  (next.filter (·.kind.redirection?.isSome)).toList.map (.dangling · kept)

/-- What clauses in a row come to before tokens that start with no clause. -/
def inRow (cs : List Clause) (later : List PlacedToken) : Clauses :=
  ⟨inForce cs, later, overridings cs ++ danglingNotes (inForce cs) later.head?⟩

/-! ## The clauses at the front -/

/-- Every list of tokens is clauses in a row and something that starts with no clause. -/
theorem exists_clauses : ∀ ts : List PlacedToken, ∃ (cs : List Clause) (later : List PlacedToken),
    ts = cs.flatMap Clause.tokens ++ later ∧ startsWithClause later = false
  | marker :: target :: ts => by
    cases hstart : startsWithClause (marker :: target :: ts) with
    | false => exact ⟨[], _, rfl, hstart⟩
    | true =>
      rw [startsWithClause, Bool.and_eq_true, Option.isSome_iff_exists] at hstart
      obtain ⟨⟨kind, hmarker⟩, htarget⟩ := hstart
      obtain ⟨cs, later, rfl, hlater⟩ := exists_clauses ts
      exact ⟨⟨marker, target, kind, redirection?_eq_some hmarker, htarget⟩ :: cs, later, rfl,
        hlater⟩
  | [t] => ⟨[], [t], rfl, rfl⟩
  | [] => ⟨[], [], rfl, rfl⟩

/-- No clauses at the front are more than those up to a place with no clause. -/
theorem length_le_of_append {cs : List Clause} {later : List PlacedToken}
    (hlater : startsWithClause later = false) : ∀ {cs' : List Clause} {later' : List PlacedToken},
      cs.flatMap Clause.tokens ++ later = cs'.flatMap Clause.tokens ++ later' →
        cs'.length ≤ cs.length := by
  induction cs with
  | nil =>
    intro cs' later' h
    cases cs' with
    | nil => exact Nat.le_refl 0
    | cons c' cs' =>
      -- one more clause would stand where none does
      have hstart := c'.startsWithClause_tokens (cs'.flatMap Clause.tokens ++ later')
      rw [← List.append_assoc, ← List.flatMap_cons, ← h] at hstart
      exact absurd hstart (by simp [hlater])
  | cons c cs ih =>
    intro cs' later' h
    cases cs' with
    | nil => exact Nat.zero_le _
    | cons c' cs' =>
      obtain ⟨-, h⟩ := List.cons.inj h
      obtain ⟨-, h⟩ := List.cons.inj h
      exact Nat.succ_le_succ (ih h)

/-- A marker where no clause starts is followed by no word. -/
theorem not_isWord_behind_marker {later : List PlacedToken} {marker target : PlacedToken}
    (hlater : startsWithClause later = false) (hmarker : later.head? = some marker)
    (hkind : marker.kind.redirection?.isSome = true) (htarget : later[1]? = some target) :
    target.isWord = false := by
  cases later with
  | nil => cases hmarker
  | cons t ts =>
    cases ts with
    | nil => cases htarget
    | cons u us =>
      cases hmarker
      cases htarget
      rwa [startsWithClause, hkind, Bool.true_and] at hlater

/-! ## What they come to -/

/-- Where no clause starts nothing is taken, and a marker is noted. -/
theorem clausesAfter_of_none (kept : Option Redirection) {later : List PlacedToken}
    (hlater : startsWithClause later = false) :
    clausesAfter kept later = ⟨kept, later, danglingNotes kept later.head?⟩ := by
  fun_cases clausesAfter kept later with
  | case1 => rfl
  | case2 marker ts hm => simp [danglingNotes, hm]
  | case3 marker kind hm => simp [danglingNotes, Option.filter, hm]
  | case4 marker kind hm target rest ht => simp [startsWithClause, hm, ht] at hlater
  | case5 marker kind hm target rest ht => simp [danglingNotes, Option.filter, hm]

/-- A clause replaces what is in force and is noted for it. -/
theorem clausesAfter_tokens (kept : Option Redirection) (c : Clause) (ts : List PlacedToken) :
    clausesAfter kept (c.tokens ++ ts) =
      { clausesAfter (some c.redirection) ts with
        log := overriding kept c.marker c.target.value ++
          (clausesAfter (some c.redirection) ts).log } := by
  show clausesAfter kept (c.marker :: c.target :: ts) = _
  rw [clausesAfter, c.redirection?_marker]
  exact if_pos c.target_isWord

/-- Behind a clause each further one is noted. -/
theorem clausesAfter_append_behind {later : List PlacedToken}
    (hlater : startsWithClause later = false) (cs : List Clause) :
    ∀ c : Clause, clausesAfter (some c.redirection) (cs.flatMap Clause.tokens ++ later) =
      inRow (c :: cs) later := by
  induction cs with
  | nil => exact fun c => clausesAfter_of_none _ hlater
  | cons d cs ih =>
    intro c
    rw [List.flatMap_cons, List.append_assoc, clausesAfter_tokens, ih d]
    rfl

/-- **Clauses in a row, before a place with no clause, are taken in full.** The last one counts, and
the tokens behind them are left. -/
theorem clauses_append {later : List PlacedToken} (hlater : startsWithClause later = false)
    (cs : List Clause) : clauses (cs.flatMap Clause.tokens ++ later) = inRow cs later := by
  cases cs with
  | nil => exact clausesAfter_of_none none hlater
  | cons c cs =>
    rw [clauses, List.flatMap_cons, List.append_assoc, clausesAfter_tokens,
      clausesAfter_append_behind hlater]
    rfl

end Redirection

/-! ## Streams -/

namespace Token

namespace Stream

open Redirection

/-- The stream some tokens further on. -/
def forward (s : Stream) (n : Nat) : Stream :=
  ⟨s.tokens, s.position + n⟩

/-- Behind its first tokens a stream has the others left. -/
theorem rest_forward {s : Stream} {ts later : List PlacedToken} (h : s.rest = ts ++ later) :
    (s.forward ts.length).rest = later := by
  show s.tokens.drop (s.position + ts.length) = later
  rw [← List.drop_drop, show s.tokens.drop s.position = ts ++ later from h, List.drop_left]

/-- The tokens that have been read, those passed and those behind them are all tokens. -/
theorem length_of_rest {s : Stream} (hs : s.position ≤ s.tokens.length)
    {ts later : List PlacedToken} (h : s.rest = ts ++ later) :
    s.tokens.length = s.position + ts.length + later.length := by
  have hlength := congrArg List.length h
  rw [rest, List.length_drop, List.length_append] at hlength
  omega

/-- What is left tells how far a stream has come. -/
theorem leaving_eq_forward {s : Stream} (hs : s.position ≤ s.tokens.length)
    {ts later : List PlacedToken} (h : s.rest = ts ++ later) :
    s.leaving later = s.forward ts.length := by
  have hlength := length_of_rest hs h
  rw [leaving, forward, Stream.mk.injEq]
  exact ⟨rfl, by omega⟩

/-- Clauses in a row are read from a stream in full, and the stream stands behind them. -/
theorem clauses_of_rest {s : Stream} (hs : s.position ≤ s.tokens.length) {cs : List Clause}
    {later : List PlacedToken} (h : s.rest = cs.flatMap Clause.tokens ++ later)
    (hlater : startsWithClause later = false) :
    s.clauses = (inForce cs, s.forward (2 * cs.length), (inRow cs later).log) := by
  rw [Stream.clauses, h, clauses_append hlater, ← Clause.length_flatMap_tokens,
    ← leaving_eq_forward hs h]
  rfl

/-- Token by token the same clauses are taken, none of them past the end. -/
theorem popClauses_of_rest {later : List PlacedToken} (hlater : startsWithClause later = false)
    (cs : List Clause) : ∀ (kept : Option Redirection) {s : Stream},
      s.rest = cs.flatMap Clause.tokens ++ later →
        s.popClauses kept = .ok ((inForce cs).or kept, s.forward (2 * cs.length)) := by
  induction cs with
  | nil =>
    intro kept s h
    rw [popClauses_of_not_startsWithClause kept (by rw [h]; exact hlater)]
    rfl
  | cons c cs ih =>
    intro kept s h
    have hrest : s.tail.tail.rest = cs.flatMap Clause.tokens ++ later := rest_tail (rest_tail h)
    -- what is in force behind all clauses is so behind the first one
    have hforce : (inForce cs).or (some c.redirection) = (inForce (c :: cs)).or kept := by
      rw [inForce, inForce, List.getLast?_cons]
      cases cs.getLast? <;> rfl
    have hforward : s.tail.tail.forward (2 * cs.length) = s.forward (2 * (c :: cs).length) := by
      rw [forward, forward, Stream.mk.injEq]
      exact ⟨rfl, by simp only [tail, List.length_cons]; omega⟩
    rw [popClauses_of_clause h c.redirection?_marker c.target_isWord]
    show s.tail.tail.popClauses (some c.redirection) = _
    rw [ih (some c.redirection) hrest, hforce, hforward]

/-- **All clauses at the front are read, and the last one counts.** A stream starts with some number
of clauses and no more. Reading them takes no token past the end; it gives the redirection of the
last clause, if there is one, and leaves the stream behind the clauses. Each clause but the first is
noted with the target that it replaces, and then a marker behind the clauses is noted, which no word
follows. Reading once more gives no redirection and leaves the stream where it is. -/
theorem clauses_greedy {s : Stream} (hs : s.position ≤ s.tokens.length) :
    ∃ cs : List Clause,
      (∃ later, s.rest = cs.flatMap Clause.tokens ++ later) ∧
      (∀ (cs' : List Clause) (later : List PlacedToken),
        s.rest = cs'.flatMap Clause.tokens ++ later → cs'.length ≤ cs.length) ∧
      s.popClauses none = .ok (inForce cs, s.forward (2 * cs.length)) ∧
      s.clauses = (inForce cs, s.forward (2 * cs.length),
        overridings cs ++ danglingNotes (inForce cs) s.tokens[s.position + 2 * cs.length]?) ∧
      (overridings cs).length = cs.length - 1 ∧
      (∀ marker target, s.tokens[s.position + 2 * cs.length]? = some marker →
        marker.kind.redirection?.isSome = true →
        s.tokens[s.position + 2 * cs.length + 1]? = some target → target.isWord = false) ∧
      (s.forward (2 * cs.length)).popClauses none = .ok (none, s.forward (2 * cs.length)) ∧
      (s.forward (2 * cs.length)).clauses = (none, s.forward (2 * cs.length),
        danglingNotes none s.tokens[s.position + 2 * cs.length]?) := by
  obtain ⟨cs, later, hrest, hlater⟩ := exists_clauses s.rest
  have hbehind : (s.forward (2 * cs.length)).rest = later := by
    rw [← Clause.length_flatMap_tokens]
    exact rest_forward hrest
  -- the two tokens behind the clauses decide on what is noted there
  have hfirst : s.tokens[s.position + 2 * cs.length]? = later.head? := by
    rw [← hbehind, rest, List.head?_drop]
    rfl
  have hsecond : s.tokens[s.position + 2 * cs.length + 1]? = later[1]? := by
    rw [← hbehind, rest, List.getElem?_drop]
    rfl
  have hin : s.position + 2 * cs.length ≤ s.tokens.length := by
    have hlength := length_of_rest hs hrest
    rw [Clause.length_flatMap_tokens] at hlength
    omega
  -- behind the clauses the stream starts with none
  have hnone : (s.forward (2 * cs.length)).rest = [].flatMap Clause.tokens ++ later := hbehind
  refine ⟨cs, ⟨later, hrest⟩, fun cs' later' h => ?_, ?_, ?_, length_overridings cs, ?_, ?_, ?_⟩
  · exact length_le_of_append hlater (hrest.symm.trans h)
  · rw [popClauses_of_rest hlater cs none hrest, Option.or_none]
  · rw [clauses_of_rest hs hrest hlater, hfirst]
    rfl
  · intro marker target hmarker hkind htarget
    rw [hfirst] at hmarker
    rw [hsecond] at htarget
    exact not_isWord_behind_marker hlater hmarker hkind htarget
  · exact popClauses_of_rest hlater [] none hnone
  · rw [clauses_of_rest hin hnone hlater, hfirst]
    rfl

/-- Behind the words of an echo stand two clauses and a marker that a pipe follows. -/
theorem clauses_greedy_two_and_marker :
    ∃ s : Stream, s = ⟨Token.ofText "echo a >x 2>>y > |".text, 2⟩ ∧
      s.position ≤ s.tokens.length ∧ ∃ cs : List Clause, cs.length = 2 ∧
        (∃ later, s.rest = cs.flatMap Clause.tokens ++ later) ∧
        s.clauses = (some ⟨.stderrAppend, "y".text⟩, s.forward 4,
          [.overridden "x".text ⟨⟨.redirect .stderrAppend, "2>>".text⟩, false, 1, 11⟩
              "y".text,
            .dangling ⟨⟨.redirect .overwrite, ">".text⟩, false, 1, 16⟩
              (some ⟨.stderrAppend, "y".text⟩)]) ∧
        (s.forward 4).popClauses none = .ok (none, s.forward 4) := by
  have hs : (Stream.mk (Token.ofText "echo a >x 2>>y > |".text) 2).position ≤
      (Token.ofText "echo a >x 2>>y > |".text).length := by decide +kernel
  have hread : (Stream.mk (Token.ofText "echo a >x 2>>y > |".text) 2).clauses =
      (some ⟨.stderrAppend, "y".text⟩, ⟨Token.ofText "echo a >x 2>>y > |".text, 6⟩,
        [.overridden "x".text ⟨⟨.redirect .stderrAppend, "2>>".text⟩, false, 1, 11⟩ "y".text,
          .dangling ⟨⟨.redirect .overwrite, ">".text⟩, false, 1, 16⟩
            (some ⟨.stderrAppend, "y".text⟩)]) := by decide +kernel
  obtain ⟨cs, hrest, -, -, hclauses, -, -, hagain, -⟩ := clauses_greedy hs
  -- the stream has come four tokens further, so there are two clauses
  have hlength : cs.length = 2 := by
    rw [hread, Prod.mk.injEq, Prod.mk.injEq, forward, Stream.mk.injEq] at hclauses
    obtain ⟨-, ⟨-, hposition⟩, -⟩ := hclauses
    have hposition : 6 = 2 + 2 * cs.length := hposition
    omega
  rw [hlength] at hagain
  exact ⟨_, rfl, hs, cs, hlength, hrest, hread, hagain⟩

end Stream

end Token

end BatchScript
