import BatchScript.Proofs.Script.Segments
import BatchScript.Proofs.Statement.Tail
import BatchScript.Proofs.Token.Order

/-!
# Heads and comments, scanned and read

The scanner decides where a statement may start and where a comment ends before any statement is
read, and the reader decides it again from the tokens. They agree on every text: no statement takes
the head of another one, a comment takes what the scanner has marked as no head, and a token is left
as no statement only where its operand is missing or where it never starts one.

> `mem_tail`: the tokens that a statement takes behind its head;
> `heads_of_text`: heads, hidden tokens and comments of a whole text.
-/

namespace BatchScript

open Token (MayStart commentOpen)

namespace Script

/-- In a text a statement takes words and operators behind its head, and nothing else. -/
theorem mem_tail {source : Text} {before taken after : List PlacedToken} {head : PlacedToken}
    {s : Statement} (htokens : Token.ofText source = before ++ (head :: taken ++ after))
    (hs : s.MadeOf (head :: taken)) :
    ∀ t ∈ taken, t.kind = .word ∨ t.kind ∈ Token.Kind.operators := by
  have hredirect : ∀ kind, Token.Kind.redirect kind ∈ Token.Kind.operators := by
    intro kind
    cases kind <;> decide
  have hknown : ∀ k ∈ Token.Kind.known, k.isHead = false → k ≠ .newLine →
      k = .word ∨ k ∈ Token.Kind.operators := by
    decide
  intro t ht
  rcases hs.tail with ⟨hrem, hline⟩ | ⟨-, htail⟩
  · -- what stands in a comment is no head, since the scanner keeps the comment open
    obtain ⟨front, back, rfl⟩ := List.append_of_mem ht
    have hsplit : Token.ofText source =
        (before ++ head :: front) ++ t :: (back ++ after) := by
      rw [htokens]
      simp
    have hopen : commentOpen (before ++ head :: front) = true :=
      Token.commentOpen_of_rem hrem fun u hu => hline u (List.mem_append_left _ hu)
    have hhead : t.kind.isHead = false := by
      cases hhead : t.kind.isHead with
      | false => rfl
      | true =>
        have hclosed := (Token.mayStart_of_isHead hsplit hhead).noComment
        rw [hopen] at hclosed
        cases hclosed
    have hnewLine : t.kind ≠ .newLine := beq_eq_false_iff_ne.1 (hline t ht)
    exact hknown t.kind (Token.admits_ofText hsplit).known hhead hnewLine
  · rcases htail t ht with hk | ⟨kind, hk⟩
    · exact Or.inl hk
    · rw [hk]
      exact Or.inr (hredirect kind)

/-! ## The segments of a text -/

/-- Segments that keep the heads of statements apart: a head stands at the front of a segment, and
behind the front there are words and operators only. -/
structure HeadsApart (segments : List (List PlacedToken)) : Prop where
  heads : ∀ (before : List PlacedToken) (t : PlacedToken) (after : List PlacedToken),
    segments.flatten = before ++ t :: after → t.kind.isHead = true →
      ∃ earlier taken later, segments = earlier ++ (t :: taken) :: later ∧ earlier.flatten = before
  tails : ∀ segment ∈ segments, ∀ t ∈ segment.tail,
    t.kind.isHead = false ∧ (t.kind = .word ∨ t.kind ∈ Token.Kind.operators)

/-- Every segment is what one of the statements is made of. -/
theorem Segments.exists_madeOf {segments : List (List PlacedToken)} {ss : List Statement}
    (h : Segments segments ss) {segment : List PlacedToken} (hsegment : segment ∈ segments) :
    ∃ s : Statement, s.MadeOf segment := by
  obtain ⟨k, hk⟩ := List.mem_iff_getElem?.1 hsegment
  have hlt : k < ss.length := h.1 ▸ (List.getElem?_eq_some_iff.1 hk).1
  obtain ⟨-, hs, -⟩ := h.2 k segment ss[k] hk (List.getElem?_eq_getElem hlt)
  exact ⟨_, hs⟩

/-- No token of a text is behind the front of a segment if a statement may start with it. -/
theorem Segments.mem_tail {source : Text} {segments earlier later : List (List PlacedToken)}
    {ss : List Statement} {head : PlacedToken} {taken : List PlacedToken}
    (h : Segments segments ss) (hflat : segments.flatten = Token.ofText source)
    (hcut : segments = earlier ++ (head :: taken) :: later) :
    ∀ t ∈ taken, t.kind.isHead = false ∧ (t.kind = .word ∨ t.kind ∈ Token.Kind.operators) := by
  have hplain : ∀ k ∈ Token.Kind.operators, k.isHead = false := by decide
  have htokens : Token.ofText source = earlier.flatten ++ (head :: taken ++ later.flatten) := by
    rw [← hflat, hcut, List.flatten_append, List.flatten_cons]
  obtain ⟨s, hs⟩ := h.exists_madeOf (hcut ▸ List.mem_append_right _ List.mem_cons_self)
  intro t ht
  have hk := Script.mem_tail htokens hs t ht
  refine ⟨?_, hk⟩
  rcases hk with hk | hk
  · rw [hk]
    rfl
  · exact hplain _ hk

/-- The segments of a text keep the heads of statements apart. -/
theorem Segments.headsApart {source : Text} {segments : List (List PlacedToken)}
    {ss : List Statement} (h : Segments segments ss)
    (hflat : segments.flatten = Token.ofText source) : HeadsApart segments := by
  refine ⟨fun before t after hsplit ht => ?_, fun segment hsegment t ht => ?_⟩
  · rcases List.flatten_eq_append_iff.1 hsplit with
      ⟨earlier, rest, hcut, hbefore, hafter⟩ |
      ⟨earlier, front, u, taken, later, hcut, hbefore, hafter⟩
    · cases rest with
      | nil => cases hafter
      | cons segment later =>
        obtain ⟨s, hs⟩ := h.exists_madeOf (hcut ▸ List.mem_append_right _ List.mem_cons_self)
        cases segment with
        | nil => exact absurd rfl (Statement.ne_nil_of_madeOf hs)
        | cons u taken =>
          obtain rfl : t = u := (List.cons.inj hafter).1
          exact ⟨earlier, taken, later, hcut, hbefore.symm⟩
    · obtain rfl : t = u := (List.cons.inj hafter).1
      cases front with
      | nil => exact ⟨earlier, taken, later, hcut, by rw [hbefore, List.append_nil]⟩
      | cons head front =>
        -- the head would be behind the front of a segment
        have hno := (h.mem_tail hflat hcut t (List.mem_append_right _ List.mem_cons_self)).1
        rw [ht] at hno
        cases hno
  · obtain ⟨earlier, later, hcut⟩ := List.append_of_mem hsegment
    cases segment with
    | nil => cases ht
    | cons head taken => exact h.mem_tail hflat hcut t ht

/-- What is left as no statement in a text is a token whose operand is missing, or one that never
starts a statement. -/
theorem kind_of_mem_unknown {source : Text} {ss : List Statement} {u : PlacedToken}
    (h : ofText source = .ok ss) (hu : .unknown u ∈ ss) :
    u.kind ∈ [.goto, .label, .pipe, .input] ∨ ∃ kind, u.kind = .redirect kind := by
  obtain ⟨taken, hmade, hmem⟩ := (read_eq_ok_iff.1 h).exists_tokens hu
  cases hmade with
  | unknown hk =>
    obtain ⟨before, after, hsplit⟩ := List.append_of_mem (hmem u List.mem_cons_self)
    have hknown := (Token.admits_ofText hsplit).known
    cases hkind : u.kind with
    | other name => simp [hkind, Token.Kind.known, Redirection.Kind.all] at hknown
    | goto | label | pipe | input => exact Or.inl (by decide)
    | redirect kind => exact Or.inr ⟨kind, rfl⟩
    | _ =>
      rw [hkind] at hk
      cases hk

/-- **The scanner and the reader agree on heads and comments.** In every text a token that stands
only where a statement may start is the first one or is behind a line break or a chain operator, and
no comment is open there; on every line the hidden tokens are the last ones. If the text can be
read, each of these tokens is the head of its own statement, no statement takes one behind its head,
and what is left as no statement lacks its operand or never starts a statement. -/
theorem heads_of_text (source : Text) :
    (∀ (before : List PlacedToken) (t : PlacedToken) (after : List PlacedToken),
      Token.ofText source = before ++ t :: after → t.kind.isHead = true → MayStart before) ∧
    (∀ before line after : List PlacedToken, Token.ofText source = before ++ (line ++ after) →
      (∀ t ∈ line.dropLast, t.endsLine = false) →
        ∃ shown hidden, line.map (·.invisible) =
          List.replicate shown false ++ List.replicate hidden true) ∧
    ∀ ss, ofText source = .ok ss →
      (∃ segments, segments.flatten = Token.ofText source ∧ Segments segments ss) ∧
      (∀ segments, segments.flatten = Token.ofText source → Segments segments ss →
        HeadsApart segments) ∧
      ∀ u, .unknown u ∈ ss →
        u.kind ∈ [.goto, .label, .pipe, .input] ∨ ∃ kind, u.kind = .redirect kind := by
  refine ⟨fun _ _ _ => Token.mayStart_of_isHead, fun _ _ _ => Token.flags_of_line, fun ss h => ?_⟩
  exact ⟨(read_eq_ok_iff.1 h).exists_segments, fun _ hflat hsegments => hsegments.headsApart hflat,
    fun _ => kind_of_mem_unknown h⟩

/-- A jump without a label before a pipe, a comment that holds a keyword, and a redirection without
a target behind a label. -/
theorem heads_of_text_comment :
    ofText "@goto|rem a & echo\n:x >".text =
        .ok [.unknown ⟨⟨.goto, "goto".text⟩, true, 1, 2⟩,
          .unknown ⟨⟨.pipe, "|".text⟩, true, 1, 6⟩, .rem "a & echo".text, .newLine,
          .label "x".text, .unknown ⟨⟨.redirect .overwrite, ">".text⟩, false, 2, 4⟩] ∧
      ∃ segments, segments.flatten = Token.ofText "@goto|rem a & echo\n:x >".text ∧
        HeadsApart segments := by
  have hread : ofText "@goto|rem a & echo\n:x >".text =
      .ok [.unknown ⟨⟨.goto, "goto".text⟩, true, 1, 2⟩,
        .unknown ⟨⟨.pipe, "|".text⟩, true, 1, 6⟩, .rem "a & echo".text, .newLine,
        .label "x".text, .unknown ⟨⟨.redirect .overwrite, ">".text⟩, false, 2, 4⟩] := by
    decide +kernel
  obtain ⟨⟨segments, hflat, hsegments⟩, happart, -⟩ := (heads_of_text _).2.2 _ hread
  exact ⟨hread, segments, hflat, happart segments hflat hsegments⟩

end Script

end BatchScript
