import BatchScript.Proofs.Statement.Tail
import BatchScript.Proofs.Token.LastLine

/-!
# Reading tokens in two parts

Where a list of tokens may be cut without a change to what is read: the second part starts with
nothing that a statement takes on behind its head, and no comment of the first part reaches over the
cut. Statements look ahead over the cut (runs of words, clauses of two tokens, an operand, a comment
up to the line's end), so each look-ahead gets a lemma that it sees the cut as it sees the end.

> `read_append_of_ok`, `read_append_of_error`: the parts are read in turn;
> `read_in_two_parts`: so the results are joined, and the first error counts.
-/

namespace BatchScript

/-- Whether a list of tokens starts with an operator that redirects output. -/
def startsWithMarker : List PlacedToken → Bool
  | [] => false
  | t :: _ => t.kind.redirection?.isSome

/-- Every comment in the tokens ends within them. -/
def CommentsEnd (ts : List PlacedToken) : Prop :=
  ∀ before head after, ts = before ++ head :: after → head.kind = .rem →
    ∃ t ∈ after, t.endsLine = true

/-- Where every comment ends within the tokens, it does so within the later ones. -/
theorem CommentsEnd.of_suffix {xs ts : List PlacedToken} (h : CommentsEnd ts) (hs : xs <:+ ts) :
    CommentsEnd xs := by
  obtain ⟨front, rfl⟩ := hs
  intro before head after hxs hk
  exact h (front ++ before) head after (by rw [hxs, List.append_assoc]) hk

/-- A cut between two parts that statements do not see over. -/
structure Boundary (xs ys : List PlacedToken) : Prop where
  noWord : startsWithWord ys = false
  noMarker : startsWithMarker ys = false
  noComment : atLineEnd ys = true ∨ CommentsEnd xs

/-- A cut that statements do not see over stays one behind the first tokens. -/
theorem Boundary.of_suffix {xs xs' ys : List PlacedToken} (h : Boundary xs ys) (hs : xs' <:+ xs) :
    Boundary xs' ys :=
  ⟨h.noWord, h.noMarker, h.noComment.imp id fun hc => hc.of_suffix hs⟩

/-- A line break is a boundary, whatever stands before it. -/
theorem boundary_newLine {t : PlacedToken} (xs ys : List PlacedToken) (ht : t.kind = .newLine) :
    Boundary xs (t :: ys) where
  noWord := by simp [startsWithWord, PlacedToken.isWord, ht]
  noMarker := by simp [startsWithMarker, ht, Token.Kind.redirection?]
  noComment := Or.inl (by simp [atLineEnd, PlacedToken.endsLine, ht])

/-- No comment reaches over the end of tokens behind which none is open. -/
theorem commentsEnd_of_commentOpen {xs : List PlacedToken} (h : Token.commentOpen xs = false) :
    CommentsEnd xs := by
  rintro before head after rfl hk
  by_contra hnone
  have hline : ∀ t ∈ after, t.endsLine = false := by
    intro t ht
    rw [← Bool.not_eq_true]
    exact fun hend => hnone ⟨t, ht, hend⟩
  rw [Token.commentOpen_of_rem hk hline] at h
  cases h

/-- A token is a boundary if no statement takes it on and no comment is open in front of it. -/
theorem boundary_of_kind {xs : List PlacedToken} {t : PlacedToken} (ys : List PlacedToken)
    (hword : t.kind ≠ .word) (hmarker : ∀ kind, t.kind ≠ .redirect kind)
    (hcomment : t.kind = .newLine ∨ Token.commentOpen xs = false) : Boundary xs (t :: ys) where
  noWord := by simpa [startsWithWord, PlacedToken.isWord] using hword
  noMarker := by
    cases hk : t.kind with
    | redirect kind => exact absurd hk (hmarker kind)
    | _ => simp [startsWithMarker, hk, Token.Kind.redirection?]
  noComment := hcomment.imp (fun hk => by simp [atLineEnd, PlacedToken.endsLine, hk])
    commentsEnd_of_commentOpen

/-! ## One look-ahead at a time -/

/-- The words in front end at a cut that starts with no word. -/
theorem frontWords_append_of_boundary (xs : List PlacedToken) {ys : List PlacedToken}
    (h : startsWithWord ys = false) :
    frontWords (xs ++ ys) = frontWords xs ∧ afterWords (xs ++ ys) = afterWords xs ++ ys := by
  induction xs with
  | nil =>
    have hnone : ∀ w ∈ ([] : List PlacedToken), w.isWord = true := by simp
    exact ⟨frontWords_append hnone h, afterWords_append hnone h⟩
  | cons t xs ih =>
    cases ht : t.isWord with
    | false => simp [frontWords, afterWords, ht]
    | true => simpa [frontWords, afterWords, ht] using ih

/-- The clauses in front end at a cut that starts with neither a word nor a marker. -/
theorem clausesAfter_append_of_boundary {xs ys : List PlacedToken} (kept : Option Redirection)
    (hw : startsWithWord ys = false) (hm : startsWithMarker ys = false) :
    Redirection.clausesAfter kept (xs ++ ys) =
      { Redirection.clausesAfter kept xs with
        rest := (Redirection.clausesAfter kept xs).rest ++ ys } := by
  fun_induction Redirection.clausesAfter kept xs with
  | case1 kept =>
    cases ys with
    | nil => rfl
    | cons t ys =>
      have ht : t.kind.redirection? = none := by simpa [startsWithMarker] using hm
      simp [Redirection.clausesAfter, ht]
  | case2 kept marker ts hmarker => simp [Redirection.clausesAfter, hmarker]
  | case3 kept marker kind hmarker =>
    -- a redirection at the cut lacks its target on both sides
    cases ys with
    | nil => simp [Redirection.clausesAfter, hmarker]
    | cons t ys =>
      have ht : t.isWord = false := hw
      simp [Redirection.clausesAfter, hmarker, ht]
  | case4 kept marker kind hmarker target rest ht later ih =>
    simp [Redirection.clausesAfter, hmarker, ht, ih, later]
  | case5 kept marker kind hmarker target rest ht => simp [Redirection.clausesAfter, hmarker, ht]

/-- A comment ends at a cut in front of a line end, if it has not ended before. -/
theorem comment_append_of_boundary {xs ys : List PlacedToken}
    (h : atLineEnd ys = true ∨ ∃ t ∈ xs, t.endsLine = true) :
    (xs ++ ys).takeWhile (!·.endsLine) = xs.takeWhile (!·.endsLine) ∧
      (xs ++ ys).dropWhile (!·.endsLine) = xs.dropWhile (!·.endsLine) ++ ys := by
  induction xs with
  | nil =>
    have hys : atLineEnd ys = true := by
      rcases h with h | ⟨t, ht, -⟩
      · exact h
      · cases ht
    cases ys with
    | nil => exact ⟨rfl, rfl⟩
    | cons t ys =>
      have ht : t.endsLine = true := hys
      simp [ht]
  | cons t xs ih =>
    cases ht : t.endsLine with
    | true => simp [ht]
    | false =>
      -- the token goes on with the comment, so the line end is behind it
      have hxs : atLineEnd ys = true ∨ ∃ t ∈ xs, t.endsLine = true := by
        refine h.imp id ?_
        rintro ⟨u, hu, hend⟩
        rcases List.mem_cons.mp hu with rfl | hu
        · rw [ht] at hend
          cases hend
        · exact ⟨u, hu, hend⟩
      simpa [ht] using ih hxs

namespace Reading

/-- A reading with more tokens behind it. -/
def followedBy {α : Type} (r : Reading α) (ts : List PlacedToken) : Reading α :=
  { r with rest := r.rest ++ ts }

end Reading

namespace Statement

/-- A statement with one operand does not see over a cut that starts with no word. -/
theorem readOperand_append {make : Text → Statement} {head : PlacedToken}
    {xs ys : List PlacedToken} (h : startsWithWord ys = false) :
    readOperand make head (xs ++ ys) = (readOperand make head xs).followedBy ys := by
  cases xs with
  | nil => exact readOperand_unknown make head h
  | cons t xs =>
    rw [List.cons_append, readOperand, readOperand]
    split <;> rfl

/-- A statement before a boundary is read as it is at the end. -/
theorem read_append {head : PlacedToken} {xs ys : List PlacedToken}
    (h : Boundary (head :: xs) ys) : read head (xs ++ ys) = (read head xs).followedBy ys := by
  obtain ⟨hfront, hafter⟩ := frontWords_append_of_boundary xs h.noWord
  cases hk : head.kind with
  | word => simp [read, hk, readCommand, Reading.done, Reading.followedBy, hfront, hafter]
  | echo =>
    simp [read, hk, readEcho, Redirection.clauses, Reading.followedBy, hfront, hafter,
      clausesAfter_append_of_boundary none h.noWord h.noMarker]
  | echoLine =>
    simp [read, hk, readEchoLine, Redirection.clauses, Reading.followedBy,
      clausesAfter_append_of_boundary none h.noWord h.noMarker]
  | exit => simp [read, hk, readExit, Reading.done, Reading.followedBy, hfront, hafter]
  | set =>
    simp only [read, hk, readSet, hfront, hafter]
    cases Assignment.ofText? (Text.joinWords (frontWords xs)) <;> rfl
  | goto | label | redirect _ =>
    have hop : head.kind.takesOperand = true := by rw [hk]; rfl
    obtain ⟨make, hread, -, -⟩ := exists_operand hop
    rw [hread, hread, readOperand_append h.noWord]
  | rem =>
    -- a comment needs more of the cut than the other statements do
    have hend : atLineEnd ys = true ∨ ∃ t ∈ xs, t.endsLine = true :=
      h.noComment.imp id fun hc => hc [] head xs rfl hk
    obtain ⟨htake, hdrop⟩ := comment_append_of_boundary hend
    simp [read, hk, readRem, Reading.done, Reading.followedBy, htake, hdrop]
  | newLine | andIfSuccess | andAlways => simp [read, hk, Reading.done, Reading.followedBy]
  | pipe | input | other _ => simp [read, hk, readUnknown, Reading.followedBy]

/-- A line break is a statement of its own, and no other statement takes one. -/
theorem countP_endsLine_of_madeOf {s : Statement} {ts : List PlacedToken} (h : s.MadeOf ts) :
    ts.countP PlacedToken.endsLine = if s = .newLine then 1 else 0 := by
  obtain ⟨head, taken, rfl⟩ := List.exists_cons_of_ne_nil (ne_nil_of_madeOf h)
  have htaken : taken.countP PlacedToken.endsLine = 0 := by
    rw [List.countP_eq_zero]
    intro t ht
    rcases h.tail with ⟨-, hline⟩ | ⟨-, hkinds⟩
    · simp [hline t ht]
    · rcases hkinds t ht with hk | ⟨kind, hk⟩ <;> simp [PlacedToken.endsLine, hk]
  rw [List.countP_cons, htaken, Nat.zero_add]
  cases h with
  | newLine hk => simp [PlacedToken.endsLine, hk]
  | @unknown _ hk =>
    have hhead : head.endsLine = false := by
      cases hkind : head.kind <;>
        simp_all [PlacedToken.endsLine, Token.Kind.takesOperand, Token.Kind.startsNothing]
    simp [hhead]
  | echo hk | echoLine hk | exit hk | set hk | command hk | goto hk | label hk | redirect hk
  | rem hk | andIfSuccess hk | andAlways hk => simp [PlacedToken.endsLine, hk]

end Statement

/-! ## Whole scripts -/

namespace Script

/-- What is left behind a statement is before the same boundary. -/
theorem boundary_rest {head : PlacedToken} {xs ys : List PlacedToken}
    (h : Boundary (head :: xs) ys) : Boundary (Statement.read head xs).rest ys :=
  h.of_suffix ((Statement.read_suffix head xs).trans (List.suffix_cons head xs))

/-- An error before a boundary is the error of the whole. -/
theorem read_append_of_error : ∀ (xs : List PlacedToken) {ys : List PlacedToken} {e : SyntaxError},
    Boundary xs ys → (read xs).result = .error e → read (xs ++ ys) = (read xs).followedBy ys
  | [], ys, e => by
    intro _ he
    rw [read] at he
    cases he
  | head :: xs, ys, e => by
    intro h he
    have hfirst := Statement.read_append h
    have hlen := (Statement.read_suffix head xs).length_le
    rw [List.cons_append, read, read]
    rcases cases_of_read_cons_eq_error he with hresult | ⟨s, hresult, hlater⟩
    · simp only [hfirst, hresult, Reading.followedBy]
    · have ih := read_append_of_error _ (boundary_rest h) hlater
      simp only [hfirst, hresult, Reading.followedBy, ih]
  termination_by xs => xs.length
  decreasing_by simp only [List.length_cons]; omega

/-- Behind a boundary the reading goes on as if it started there. -/
theorem read_append_of_ok : ∀ (xs : List PlacedToken) {ys : List PlacedToken}
    {ss : List Statement}, Boundary xs ys → (read xs).result = .ok ss →
      read (xs ++ ys) = ⟨(read ys).result.map (ss ++ ·), (read ys).rest,
        (read xs).log ++ (read ys).log⟩
  | [], ys, ss => by
    intro _ hss
    rw [read] at hss ⊢
    cases hss
    cases hys : (read ys).result <;> simp [Reading.done, Except.map, ← hys]
  | head :: xs, ys, ss => by
    intro h hss
    have hfirst := Statement.read_append h
    have hlen := (Statement.read_suffix head xs).length_le
    obtain ⟨s, later, hresult, hlater, rfl⟩ := exists_of_read_cons_eq_ok hss
    have ih := read_append_of_ok _ (boundary_rest h) hlater
    rw [List.cons_append, read, read]
    simp only [hfirst, hresult, Reading.followedBy, ih]
    cases hys : (read ys).result <;> simp [Except.map]
  termination_by xs => xs.length
  decreasing_by simp only [List.length_cons]; omega

/-- A script has as many line breaks as its tokens. -/
theorem count_newLine_of_madeOf {ss : List Statement} {ts : List PlacedToken} (h : MadeOf ss ts) :
    ss.count .newLine = ts.countP PlacedToken.endsLine := by
  induction h with
  | nil => rfl
  | @cons s ss ts rest hs _ _ ih =>
    rw [List.count_cons, ih, List.countP_append, Statement.countP_endsLine_of_madeOf hs,
      Nat.add_comm]
    simp only [beq_iff_eq]

/-! ## Two parts -/

/-- **Tokens are read in two parts.** They may be cut in front of every token that is no word and no
redirection marker, if it is a line break or no comment is open there. The statements of the first
part are followed by those of the second one; an error in the first part is the error of the whole,
and so is one in the second part if the first has none. No cut divides or joins lines: there are as
many line breaks among the statements as among the tokens. -/
theorem read_in_two_parts :
    (∀ (xs ys : List PlacedToken) (t : PlacedToken), t.kind ≠ .word →
      (∀ kind, t.kind ≠ .redirect kind) →
      (t.kind = .newLine ∨ Token.commentOpen xs = false) →
        (read (xs ++ t :: ys)).result = do
          let earlier ← (read xs).result
          let later ← (read (t :: ys)).result
          return earlier ++ later) ∧
    ∀ (ts : List PlacedToken) (ss : List Statement), (read ts).result = .ok ss →
      ss.count .newLine = ts.countP PlacedToken.endsLine := by
  refine ⟨fun xs ys t hword hmarker hcomment => ?_, fun ts ss h => ?_⟩
  · have hboundary := boundary_of_kind ys hword hmarker hcomment
    cases hxs : (read xs).result with
    | error e =>
      rw [read_append_of_error xs hboundary hxs]
      exact hxs
    | ok ss =>
      rw [read_append_of_ok xs hboundary hxs]
      rfl
  · exact count_newLine_of_madeOf (read_eq_ok_iff.1 h)

/-- A marker without a target in front of a pipe, and a comment in front of a line break and of an
assignment that cannot be read. -/
theorem read_in_two_parts_pipe_and_comment :
    (read ([⟨⟨.echo, "echo".text⟩, true, 1, 2⟩, ⟨⟨.redirect .overwrite, ['>']⟩, true, 1, 7⟩] ++
        [⟨⟨.pipe, ['|']⟩, true, 1, 8⟩])).result =
      .ok ([.echo [] true none, .unknown ⟨⟨.redirect .overwrite, ['>']⟩, true, 1, 7⟩] ++
        [.unknown ⟨⟨.pipe, ['|']⟩, true, 1, 8⟩]) ∧
    (read ([⟨⟨.rem, "rem".text⟩, false, 1, 1⟩] ++ [⟨⟨.newLine, ['\n']⟩, false, 1, 4⟩,
        ⟨⟨.set, "set".text⟩, false, 2, 1⟩])).result =
      .error (.invalidAssignment (some 2) (some 1)) ∧
    [Statement.rem [], .newLine].count .newLine =
      [(⟨⟨.rem, "rem".text⟩, false, 1, 1⟩ : PlacedToken),
        ⟨⟨.newLine, ['\n']⟩, false, 1, 4⟩].countP PlacedToken.endsLine := by
  have hecho : (read [⟨⟨.echo, "echo".text⟩, true, 1, 2⟩,
      ⟨⟨.redirect .overwrite, ['>']⟩, true, 1, 7⟩]).result =
      .ok [.echo [] true none, .unknown ⟨⟨.redirect .overwrite, ['>']⟩, true, 1, 7⟩] := by
    decide +kernel
  have hpipe : (read [⟨⟨.pipe, ['|']⟩, true, 1, 8⟩]).result =
      .ok [.unknown ⟨⟨.pipe, ['|']⟩, true, 1, 8⟩] := by decide +kernel
  have hrem : (read [⟨⟨.rem, "rem".text⟩, false, 1, 1⟩]).result = .ok [.rem []] := by
    decide +kernel
  have hset : (read [⟨⟨.newLine, ['\n']⟩, false, 1, 4⟩,
      ⟨⟨.set, "set".text⟩, false, 2, 1⟩]).result =
      .error (.invalidAssignment (some 2) (some 1)) := by decide +kernel
  have hline : (read [⟨⟨.rem, "rem".text⟩, false, 1, 1⟩,
      ⟨⟨.newLine, ['\n']⟩, false, 1, 4⟩]).result = .ok [.rem [], .newLine] := by decide +kernel
  refine ⟨?_, ?_, read_in_two_parts.2 _ _ hline⟩
  · rw [read_in_two_parts.1 _ _ _ (by decide) (by simp) (Or.inr (by decide)), hecho, hpipe]
    rfl
  · rw [read_in_two_parts.1 _ _ _ (by decide) (by simp) (Or.inl rfl), hrem, hset]
    rfl

end Script

end BatchScript
