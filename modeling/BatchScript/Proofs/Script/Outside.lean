import BatchScript.Proofs.Statement.Tail
import BatchScript.Proofs.Token.LastLine

/-!
# Tokens outside of comments

Much of what a reading does can be told from one token at a time: whether it stands in a comment,
and which tokens follow. `Outside` says this of an index of the whole list, where nothing is known
of how the tokens in front of it have been taken apart. A reading goes from the front on, so two
facts are needed for each piece that it takes: what the piece itself holds, and that it changes
nothing for the tokens behind it.

> `outside_append_iff`: behind tokens that leave no comment open the same tokens stand outside of
> comments as if the list began there;
> `Outside.of_madeOf`: outside of comments a statement holds its head, and words or markers behind
> it.
-/

namespace BatchScript

namespace Script

/-- The token at an index of a list stands in no comment, and `p` holds of it and of the tokens
behind it. -/
structure Outside (p : PlacedToken → List PlacedToken → Prop) (ts : List PlacedToken) (i : Nat)
    (t : PlacedToken) : Prop where
  get : ts[i]? = some t
  noComment : Token.commentOpen (ts.take i) = false
  holds : p t (ts.drop (i + 1))

variable {p : PlacedToken → List PlacedToken → Prop}

theorem not_outside_nil (i : Nat) (t : PlacedToken) : ¬Outside p [] i t := by
  intro h
  cases h.get

/-- At the front no comment has begun. -/
theorem outside_zero_iff {head t : PlacedToken} {ts : List PlacedToken} :
    Outside p (head :: ts) 0 t ↔ t = head ∧ p head ts := by
  constructor
  · rintro ⟨hget, -, hp⟩
    obtain rfl : head = t := Option.some.inj hget
    exact ⟨rfl, hp⟩
  · rintro ⟨rfl, hp⟩
    exact ⟨rfl, rfl, hp⟩

/-- A comment that has begun in front stays open up to the end of its line. So it is not open behind
tokens that leave none open, and not behind tokens at the end of whose line the others begin. -/
theorem commentOpen_append_take {front rest : List PlacedToken}
    (hfront : Token.commentOpen front = false ∨ atLineEnd rest = true) {j : Nat} {t : PlacedToken}
    (hget : rest[j]? = some t) (ht : t.endsLine = false) :
    Token.commentOpen (front ++ rest.take j) = Token.commentOpen (rest.take j) := by
  rw [Token.commentOpen_append]
  rcases hfront with hfront | hline
  · rw [hfront, Bool.false_and, Bool.or_false]
  · cases rest with
    | nil => cases hget
    | cons u us =>
      have hu : u.endsLine = true := hline
      cases j with
      | zero =>
        obtain rfl : u = t := Option.some.inj hget
        rw [ht] at hu
        cases hu
      | succ j => simp [hu]

/-- Behind tokens that leave no comment open, the same tokens stand outside of comments as if the
list began there. -/
theorem outside_append_iff {front rest : List PlacedToken}
    (hfront : Token.commentOpen front = false ∨ atLineEnd rest = true)
    (hp : ∀ {t later}, p t later → t.endsLine = false) {j : Nat} {t : PlacedToken} :
    Outside p (front ++ rest) (front.length + j) t ↔ Outside p rest j t := by
  have hget : (front ++ rest)[front.length + j]? = rest[j]? := by
    rw [List.getElem?_append_right (Nat.le_add_right _ _), Nat.add_sub_cancel_left]
  have htake : (front ++ rest).take (front.length + j) = front ++ rest.take j :=
    List.take_length_add_append j
  have hdrop : (front ++ rest).drop (front.length + j + 1) = rest.drop (j + 1) := by
    rw [Nat.add_assoc, List.drop_length_add_append]
  constructor
  · rintro ⟨hat, hcomment, hholds⟩
    rw [hget] at hat
    rw [hdrop] at hholds
    rw [htake, commentOpen_append_take hfront hat (hp hholds)] at hcomment
    exact ⟨hat, hcomment, hholds⟩
  · rintro ⟨hat, hcomment, hholds⟩
    refine ⟨by rwa [hget], ?_, by rwa [hdrop]⟩
    rwa [htake, commentOpen_append_take hfront hat (hp hholds)]

/-! ## Statement by statement -/

section

variable {s : Statement} {head : PlacedToken} {taken rest : List PlacedToken}
  (hs : s.MadeOf (head :: taken))
include hs

/-- A statement leaves a comment open only at the end of its line. -/
theorem commentOpen_or_atLineEnd (hend : s.Before rest) :
    Token.commentOpen (head :: taken) = false ∨ atLineEnd rest = true := by
  rcases hs.tail with ⟨hrem, -⟩ | ⟨hrem, htail⟩
  · exact Or.inr (hs.atLineEnd_of_rem hrem hend)
  · refine Or.inl (Token.commentOpen_eq_false fun u hu => ?_)
    rcases List.mem_cons.1 hu with rfl | hu
    · exact hrem
    · rcases htail u hu with hk | ⟨kind, hk⟩ <;> simp [hk]

/-- Behind a statement the same tokens stand outside of comments as if the list began there. -/
theorem outside_behind_iff (hend : s.Before rest)
    (hp : ∀ {t later}, p t later → t.endsLine = false) {j : Nat} {t : PlacedToken} :
    Outside p (head :: taken ++ rest) ((head :: taken).length + j) t ↔ Outside p rest j t :=
  outside_append_iff (commentOpen_or_atLineEnd hs hend) hp

/-- A token of a statement that stands outside of comments is its head, or a word or a marker behind
a head that begins no comment. -/
theorem Outside.of_madeOf {i : Nat} {t : PlacedToken}
    (h : Outside p (head :: taken ++ rest) i t) (hi : i < (head :: taken).length) :
    (i = 0 ∧ t = head ∧ p head (taken ++ rest)) ∨
      (head.kind ≠ .rem ∧ ∃ before after, taken = before ++ t :: after ∧ p t (after ++ rest)) := by
  cases i with
  | zero =>
    obtain ⟨rfl, hp⟩ := outside_zero_iff.1 h
    exact Or.inl ⟨rfl, rfl, hp⟩
  | succ i =>
    have hlt : i < taken.length := Nat.lt_of_succ_lt_succ hi
    rcases hs.tail with ⟨hrem, hline⟩ | ⟨hrem, -⟩
    · -- the comment that the head begins is open up to here
      have hopen := h.noComment
      have hcomment : Token.commentOpen ([] ++ head :: taken.take i) = true :=
        Token.commentOpen_of_rem hrem fun u hu => hline u (List.mem_of_mem_take hu)
      rw [List.cons_append, List.take_succ_cons, List.take_append_of_le_length (Nat.le_of_lt hlt),
        ← List.nil_append (head :: _), hcomment] at hopen
      cases hopen
    · have hget := h.get
      rw [List.cons_append, List.getElem?_cons_succ, List.getElem?_append_left hlt] at hget
      have hholds := h.holds
      rw [List.cons_append, List.drop_succ_cons, List.drop_append_of_le_length hlt] at hholds
      obtain ⟨hlt', rfl⟩ := List.getElem?_eq_some_iff.1 hget
      refine Or.inr ⟨hrem, taken.take i, taken.drop (i + 1), ?_, hholds⟩
      rw [← List.drop_eq_getElem_cons hlt', List.take_append_drop]

end

/-! ## Listing indices -/

/-- A list of indices has all those with a property, each once and in order. -/
structure Enumerates (P : Nat → Prop) (indices : List Nat) : Prop where
  ordered : indices.Pairwise (· < ·)
  mem_iff : ∀ i, i ∈ indices ↔ P i

namespace Enumerates

theorem nil {P : Nat → Prop} (h : ∀ i, ¬P i) : Enumerates P [] :=
  ⟨.nil, fun i => by simp [h i]⟩

theorem singleton {P : Nat → Prop} {k : Nat} (h : ∀ i, P i ↔ i = k) : Enumerates P [k] :=
  ⟨List.pairwise_singleton _ _, fun i => by rw [List.mem_singleton, h]⟩

/-- The indices below a bound and those from it on, which are counted from there, are all of
them. -/
theorem append {P Q : Nat → Prop} {front later : List Nat} {n : Nat}
    (hfront : Enumerates (fun i => i < n ∧ P i) front) (hlater : Enumerates Q later)
    (hshift : ∀ j, P (n + j) ↔ Q j) : Enumerates P (front ++ later.map (n + ·)) := by
  constructor
  · rw [List.pairwise_append, List.pairwise_map]
    refine ⟨hfront.ordered, hlater.ordered.imp fun h => Nat.add_lt_add_left h n, ?_⟩
    intro i hi k hk
    obtain ⟨j, -, rfl⟩ := List.mem_map.1 hk
    exact Nat.lt_of_lt_of_le ((hfront.mem_iff i).1 hi).1 (Nat.le_add_right n j)
  · intro i
    rw [List.mem_append, hfront.mem_iff, List.mem_map]
    constructor
    · rintro (⟨-, hi⟩ | ⟨j, hj, rfl⟩)
      · exact hi
      · exact (hshift j).2 ((hlater.mem_iff j).1 hj)
    · intro hi
      by_cases hlt : i < n
      · exact Or.inl ⟨hlt, hi⟩
      · obtain ⟨j, rfl⟩ := Nat.exists_eq_add_of_le (Nat.le_of_not_lt hlt)
        exact Or.inr ⟨j, (hlater.mem_iff j).2 ((hshift j).1 hi), rfl⟩

end Enumerates

end Script

end BatchScript
