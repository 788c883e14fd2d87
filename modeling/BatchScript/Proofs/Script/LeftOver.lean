import Mathlib.Data.List.Forall2
import BatchScript.Proofs.Script.Outside

/-!
# Tokens that are no statement

A script keeps a token as it is when it starts no statement. Which tokens these are depends, as a
reading goes, on what the statements in front have taken: a redirection marker may belong to a
clause, and every token behind a comment belongs to it. But the tokens around one say as much.
Outside of comments it is left over if no statement starts with its kind, or if the word is missing
that it takes.

> `read_leaves_over`: the tokens that a script keeps, and the notes on them.
-/

namespace BatchScript

/-- The kinds of token that a statement may start with. -/
def Token.Kind.starters : List Kind :=
  [.echo, .echoLine, .word, .exit, .set, .goto, .label, .rem] ++
    Redirection.Kind.all.map .redirect ++ [.andIfSuccess, .andAlways, .newLine]

/-- The kinds that start nothing are all but the starters. -/
theorem Token.Kind.startsNothing_iff {k : Kind} : k.startsNothing = true ↔ k ∉ starters := by
  cases k with
  | redirect kind => cases kind <;> decide
  | other name => simp [startsNothing, starters, Redirection.Kind.all]
  | _ => decide

/-- Whether a token starts no statement in front of the given ones: none starts with its kind, or it
takes a word and none is there. -/
def StartsNone (t : PlacedToken) (later : List PlacedToken) : Prop :=
  t.kind ∉ Token.Kind.starters ∨
    (t.kind.takesOperand = true ∧ startsWithWord later = false)

theorem StartsNone.endsLine {t : PlacedToken} {later : List PlacedToken} (h : StartsNone t later) :
    t.endsLine = false := by
  rw [PlacedToken.endsLine, beq_eq_false_iff_ne]
  intro hk
  rcases h with h | ⟨h, -⟩
  · rw [hk] at h
    exact h (by decide)
  · rw [hk] at h
    cases h

/-- A bare word always starts a statement. -/
theorem not_startsNone_of_isWord {t : PlacedToken} (ht : t.isWord = true)
    (later : List PlacedToken) : ¬StartsNone t later := by
  rw [PlacedToken.isWord_iff] at ht
  rintro (h | ⟨h, -⟩)
  · rw [ht] at h
    exact h (by decide)
  · rw [ht] at h
    cases h

/-- Where a word follows, a token that takes one starts a statement. -/
theorem StartsNone.not_mem {t : PlacedToken} {later : List PlacedToken} (h : StartsNone t later)
    (hword : startsWithWord later = true) : t.kind ∉ Token.Kind.starters := by
  rcases h with h | ⟨-, h⟩
  · exact h
  · rw [hword] at h
    cases h

/-! ## Statement by statement -/

namespace Statement

/-- The head that a statement keeps starts none, and every other head starts its statement. -/
theorem MadeOf.startsNone_iff {s : Statement} {head : PlacedToken} {taken rest : List PlacedToken}
    (hs : s.MadeOf (head :: taken)) (hend : s.Before rest) :
    StartsNone head (taken ++ rest) ↔ s.unknown? = some head := by
  -- a starter that needs no operand always starts its statement
  have hstarter : ∀ k ∈ Token.Kind.starters, head.kind = k → k.takesOperand = false →
      ¬StartsNone head (taken ++ rest) := by
    rintro k hk hhead hop (h | ⟨h, -⟩)
    · exact h (hhead ▸ hk)
    · rw [hhead, hop] at h
      cases h
  cases hs with
  | echo hk | echoLine hk | exit hk | command hk | rem hk | andIfSuccess hk | andAlways hk
  | newLine hk =>
    simpa [unknown?] using hstarter _ (by decide) hk rfl
  | set hk => simpa [unknown?] using hstarter _ (by decide) hk rfl
  | goto hk ht | label hk ht =>
    -- the operand is there
    simp only [unknown?, reduceCtorEq, iff_false]
    exact fun h => h.not_mem ht (by rw [hk]; decide)
  | @redirect _ _ kind hk ht =>
    simp only [unknown?, reduceCtorEq, iff_false]
    exact fun h => h.not_mem ht (by rw [hk]; cases kind <;> decide)
  | unknown hk =>
    simp only [unknown?, iff_true]
    rw [Bool.or_eq_true] at hk
    rcases hk with hk | hk
    · exact Or.inr ⟨hk, hend hk⟩
    · exact Or.inl (Token.Kind.startsNothing_iff.1 hk)

end Statement

namespace Script

section

variable {s : Statement} {head : PlacedToken} {taken rest : List PlacedToken}
  (hs : s.MadeOf (head :: taken)) (hend : s.Before rest)
include hs hend

/-- Of the tokens of a statement only a head that it keeps is left over. -/
theorem leftOver_iff_of_madeOf {i : Nat} {t : PlacedToken} (hi : i < (head :: taken).length) :
    Outside StartsNone (head :: taken ++ rest) i t ↔ i = 0 ∧ s.unknown? = some t := by
  constructor
  · intro h
    rcases h.of_madeOf hs hi with ⟨rfl, rfl, hnone⟩ | ⟨hrem, before, after, htaken, hnone⟩
    · exact ⟨rfl, (hs.startsNone_iff hend).1 hnone⟩
    · exfalso
      have hmem : t ∈ taken := by simp [htaken]
      rcases hs.tail with ⟨hrem', -⟩ | ⟨-, htail⟩
      · exact hrem hrem'
      · rcases htail t hmem with hk | ⟨kind, hk⟩
        · exact not_startsNone_of_isWord (PlacedToken.isWord_iff.2 hk) _ hnone
        · -- a marker that belongs to a clause has its target behind it
          have hword := hs.word_behind hrem htaken hk
          cases after with
          | nil => cases hword
          | cons u us => exact hnone.not_mem hword (by rw [hk]; cases kind <;> decide)
  · rintro ⟨rfl, ht⟩
    have hhead : t = head := by
      cases hs <;> simp_all [Statement.unknown?]
    rw [List.cons_append, outside_zero_iff]
    exact ⟨hhead, (hs.startsNone_iff hend).2 (hhead ▸ ht)⟩

/-- So a statement has one token left over if it keeps its head, and none if not. -/
theorem exists_leftOver_iff_of_madeOf (i : Nat) :
    (i < (head :: taken).length ∧ ∃ t, Outside StartsNone (head :: taken ++ rest) i t) ↔
      i = 0 ∧ ∃ t, s.unknown? = some t := by
  constructor
  · rintro ⟨hi, t, ht⟩
    obtain ⟨rfl, hkept⟩ := (leftOver_iff_of_madeOf hs hend hi).1 ht
    exact ⟨rfl, t, hkept⟩
  · rintro ⟨rfl, t, hkept⟩
    have hpos : 0 < (head :: taken).length := Nat.succ_pos _
    exact ⟨hpos, t, (leftOver_iff_of_madeOf hs hend hpos).2 ⟨rfl, hkept⟩⟩

end

/-- The tokens left over are the ones that the statements keep, in order. -/
theorem MadeOf.exists_leftOver {ss : List Statement} {ts : List PlacedToken} (h : MadeOf ss ts) :
    ∃ indices, Enumerates (fun i => ∃ t, Outside StartsNone ts i t) indices ∧
      List.Forall₂ (Outside StartsNone ts) indices (ss.filterMap Statement.unknown?) := by
  induction h with
  | nil => exact ⟨[], .nil fun i => by simp [not_outside_nil], .nil⟩
  | @cons s ss ts rest hs hend _ ih =>
    obtain ⟨later, hlater, hkept⟩ := ih
    obtain ⟨head, taken, rfl⟩ := List.exists_cons_of_ne_nil (Statement.ne_nil_of_madeOf hs)
    -- the later indices, counted from the first statement
    have hshift : ∀ j t, Outside StartsNone (head :: taken ++ rest)
        ((head :: taken).length + j) t ↔ Outside StartsNone rest j t :=
      fun j t => outside_behind_iff hs hend StartsNone.endsLine
    have hbehind : List.Forall₂ (Outside StartsNone (head :: taken ++ rest))
        (later.map ((head :: taken).length + ·)) (ss.filterMap Statement.unknown?) := by
      rw [List.forall₂_map_left_iff]
      exact hkept.imp fun j t hj => (hshift j t).2 hj
    cases hs' : s.unknown? with
    | none =>
      refine ⟨[] ++ later.map ((head :: taken).length + ·), ?_, ?_⟩
      · refine (Enumerates.nil fun i => ?_).append hlater fun j => exists_congr (hshift j)
        rw [exists_leftOver_iff_of_madeOf hs hend, hs']
        simp
      · rw [List.filterMap_cons_none hs']
        exact hbehind
    | some t =>
      refine ⟨[0] ++ later.map ((head :: taken).length + ·), ?_, ?_⟩
      · refine (Enumerates.singleton fun i => ?_).append hlater fun j => exists_congr (hshift j)
        rw [exists_leftOver_iff_of_madeOf hs hend, hs']
        simp
      · rw [List.filterMap_cons_some hs']
        have hzero := (leftOver_iff_of_madeOf hs hend (Nat.succ_pos _)).2 ⟨rfl, hs'⟩
        exact .cons hzero hbehind

end Script

/-! ## Notes -/

namespace Log

/-- How the line of a note begins that a head starts no statement. -/
def unknownHeadOpening : Text :=
  "DEBUG batchc.batch_parser: Unknown statement head ".text

/-- The notes whose lines begin so. -/
def headNotes (log : List Entry) : List Entry :=
  log.filter (unknownHeadOpening.isPrefixOf ·.line)

/-- A line whose front is no part of the opening does not begin so. -/
theorem not_opens_line {front : Text}
    (hfront : ¬front <+: unknownHeadOpening ∧ front.length ≤ unknownHeadOpening.length)
    (rest : Text) : ¬unknownHeadOpening <+: front ++ rest :=
  fun h => hfront.1 (List.prefix_of_prefix_length_le (List.prefix_append front rest) h hfront.2)

namespace Entry

theorem line_unknownHead (head : PlacedToken) :
    (unknownHead head).line = unknownHeadOpening ++ (head.kind.name ++
      char ' ' :: (Text.quoted head.value ++ (" at ".text ++ head.place))) := by
  have hopening : unknownHeadOpening = "DEBUG batchc.batch_parser".text ++ ": ".text ++
      "Unknown statement head ".text := by decide +kernel
  rw [hopening, line, show (unknownHead head).note = "Unknown statement head ".text ++
    head.kind.name ++ char ' ' :: Text.quoted head.value ++ " at ".text ++ head.place from rfl]
  simp only [origin, List.append_assoc, List.cons_append]

theorem line_missingSeparator (head : PlacedToken) (operands : Text) :
    (missingSeparator head operands).line = "DEBUG batchc.batch_parser: SET at ".text ++
      (head.place ++ (" has no '=': ".text ++ Text.quoted operands)) := by
  have hfront : "DEBUG batchc.batch_parser: SET at ".text =
      "DEBUG batchc.batch_parser".text ++ ": ".text ++ "SET at ".text := by decide +kernel
  rw [hfront, line, show (missingSeparator head operands).note = "SET at ".text ++ head.place ++
    " has no '=': ".text ++ Text.quoted operands from rfl]
  simp only [origin, List.append_assoc]

/-- Only a note on a head has a line that begins so. -/
theorem opens_line_iff (e : Entry) :
    unknownHeadOpening <+: e.line ↔ ∃ head, e = .unknownHead head := by
  -- the notes of every other origin differ from the opening there
  have horigin : ∀ o ∈ ["DEBUG batchc.batch_redirection", "DEBUG batchc.batch_cli",
      "INFO batchc.batch_cli"], ¬o.text <+: unknownHeadOpening ∧
        o.text.length ≤ unknownHeadOpening.length := by decide +kernel
  cases e with
  | unknownHead head =>
    rw [line_unknownHead]
    exact iff_of_true (List.prefix_append _ _) ⟨head, rfl⟩
  | missingSeparator head operands =>
    rw [line_missingSeparator]
    exact iff_of_false (not_opens_line (by decide +kernel) _) (by simp)
  | dangling | overridden | lexed | parsed | wrote =>
    refine iff_of_false ?_ (by simp)
    rw [line, List.append_assoc]
    exact not_opens_line (horigin _ (by simp [origin])) _

end Entry

theorem headNotes_append (log log' : List Entry) :
    headNotes (log ++ log') = headNotes log ++ headNotes log' :=
  List.filter_append _ _

theorem headNotes_unknownHead (head : PlacedToken) :
    headNotes [.unknownHead head] = [.unknownHead head] := by
  have hopens := List.isPrefixOf_iff_prefix.2 ((Entry.opens_line_iff _).2 ⟨head, rfl⟩)
  simp only [headNotes, List.filter_cons, hopens, if_true, List.filter_nil]

/-- Where no note is on a head, no line begins so. -/
theorem headNotes_eq_nil {log : List Entry} (h : ∀ e ∈ log, ∀ head, e ≠ .unknownHead head) :
    headNotes log = [] := by
  rw [headNotes, List.filter_eq_nil_iff]
  intro e he hopens
  obtain ⟨head, rfl⟩ := (Entry.opens_line_iff e).1 (List.isPrefixOf_iff_prefix.1 hopens)
  exact h _ he head rfl

end Log

/-- Clauses note nothing on heads. -/
theorem Redirection.clausesAfter_log (kept : Option Redirection) (ts : List PlacedToken) :
    ∀ e ∈ (clausesAfter kept ts).log, ∀ head, e ≠ .unknownHead head := by
  fun_induction clausesAfter kept ts with
  | case1 | case2 => simp
  | case3 | case5 => simp
  | case4 kept marker kind hm target rest ht later ih =>
    intro e he
    rcases List.mem_append.1 he with he | he
    · cases kept <;> simp_all [overriding]
    · exact ih e he

namespace Statement

/-- A head without the word that it takes is noted. -/
theorem headNotes_readOperand {make : Text → Statement}
    (hmake : ∀ v, (make v).unknown? = none) (head : PlacedToken) (ts : List PlacedToken)
    {s : Statement} (h : (readOperand make head ts).result = .ok s) :
    Log.headNotes (readOperand make head ts).log = s.unknown?.toList.map .unknownHead := by
  cases hw : startsWithWord ts with
  | false =>
    rw [readOperand_unknown make head hw] at h ⊢
    cases h
    exact Log.headNotes_unknownHead head
  | true =>
    cases ts with
    | nil => cases hw
    | cons t ts =>
      rw [readOperand_word make head ts hw] at h ⊢
      cases h
      rw [hmake]
      rfl

/-- A statement notes the head that it keeps, and no other. -/
theorem headNotes_read {head : PlacedToken} {ts : List PlacedToken} {s : Statement}
    (h : (read head ts).result = .ok s) :
    Log.headNotes (read head ts).log = s.unknown?.toList.map .unknownHead := by
  cases hk : head.kind with
  | word | exit | rem | newLine | andIfSuccess | andAlways =>
    simp only [read, hk, readCommand, readExit, readRem, Reading.done] at h ⊢
    cases h
    rfl
  | echo | echoLine =>
    -- the notes on clauses are about other tokens
    simp only [read, hk, readEcho, readEchoLine] at h ⊢
    cases h
    exact Log.headNotes_eq_nil (Redirection.clausesAfter_log none _)
  | set =>
    simp only [read, hk, readSet] at h ⊢
    split at h
    · cases h
      rfl
    · cases h
  | goto | label | redirect _ =>
    simp only [read, hk, readGoto, readLabel, readRedirect] at h ⊢
    exact headNotes_readOperand (fun _ => rfl) head ts h
  | pipe | input | other _ =>
    simp only [read, hk, readUnknown] at h ⊢
    cases h
    exact Log.headNotes_unknownHead head

end Statement

namespace Script

/-- The heads that a script keeps are noted in turn. -/
theorem headNotes_read : ∀ (ts : List PlacedToken) {ss : List Statement},
    (read ts).result = .ok ss →
      Log.headNotes (read ts).log = (ss.filterMap Statement.unknown?).map .unknownHead
  | [], ss => by
    intro h
    rw [read] at h ⊢
    cases h
    rfl
  | head :: ts, ss => by
    intro h
    obtain ⟨s, later, hfirst, hlater, rfl⟩ := exists_of_read_cons_eq_ok h
    have hlen := (Statement.read_suffix head ts).length_le
    rw [log_read_cons_of_ok hfirst, Log.headNotes_append, Statement.headNotes_read hfirst,
      headNotes_read _ hlater]
    cases hs : s.unknown? <;> simp [hs]
  termination_by ts => ts.length
  decreasing_by simp only [List.length_cons]; omega

/-- **A script keeps the tokens that are left over, and notes each of them.** What it keeps are, in
order, the tokens outside of comments that start no statement where they stand, as they are in the
list. The lines of the log that say so are those of the same tokens, in the same order. -/
theorem read_leaves_over {ts : List PlacedToken} {ss : List Statement}
    (h : (read ts).result = .ok ss) :
    (∃ indices, Enumerates (fun i => ∃ t, Outside StartsNone ts i t) indices ∧
      List.Forall₂ (Outside StartsNone ts) indices (ss.filterMap Statement.unknown?)) ∧
    Log.headNotes (read ts).log = (ss.filterMap Statement.unknown?).map .unknownHead :=
  ⟨(madeOf_of_read ts h).exists_leftOver, headNotes_read ts h⟩

/-- A pipe is left over, but not in a comment; so are a jump to nowhere, a token of no known kind,
and a marker at the end of a line. -/
theorem read_leaves_over_two_lines :
    let ts : List PlacedToken :=
      [⟨⟨.pipe, ['|']⟩, false, 1, 1⟩, ⟨⟨.rem, "REM".text⟩, false, 1, 3⟩,
        ⟨⟨.pipe, ['|']⟩, false, 1, 7⟩, ⟨⟨.newLine, ['\n']⟩, false, 1, 8⟩,
        ⟨⟨.goto, "goto".text⟩, true, 2, 2⟩, ⟨⟨.other "MARK".text, ['?']⟩, true, 2, 7⟩,
        ⟨⟨.echo, "echo".text⟩, false, 2, 9⟩, ⟨⟨.redirect .append, ['>', '>']⟩, false, 2, 14⟩]
    let ss : List Statement :=
      [.unknown ⟨⟨.pipe, ['|']⟩, false, 1, 1⟩, .rem ['|'], .newLine,
        .unknown ⟨⟨.goto, "goto".text⟩, true, 2, 2⟩,
        .unknown ⟨⟨.other "MARK".text, ['?']⟩, true, 2, 7⟩, .echo [] false none,
        .unknown ⟨⟨.redirect .append, ['>', '>']⟩, false, 2, 14⟩]
    (read ts).result = .ok ss ∧
      (∃ indices, Enumerates (fun i => ∃ t, Outside StartsNone ts i t) indices ∧
        List.Forall₂ (Outside StartsNone ts) indices (ss.filterMap Statement.unknown?)) ∧
      Log.headNotes (read ts).log = (ss.filterMap Statement.unknown?).map .unknownHead := by
  intro ts ss
  have hread : (read ts).result = .ok ss := by decide +kernel
  exact ⟨hread, read_leaves_over hread⟩

end Script

end BatchScript
