import Mathlib.Data.List.Forall2
import BatchScript.Proofs.Text.Lines
import BatchScript.Proofs.Token.Order
import BatchScript.Proofs.Token.Spelt

/-!
# Where tokens stand in a text

The tokens of a text are read from spans of it that follow one another. A span tells its token: the
value, and the place of its first character. What stands outside of the spans is skipped, and for
every skipped character there is a reason that the text and the tokens before it give.

> `Scans.tiled`: the steps of a scanner tile the text with spans and skipped characters;
> `spans_of_text`: the spans of all tokens and the reasons for all skipped characters.
-/

namespace BatchScript

/-- The place behind a text from the start of a source, told from the text: its line breaks and the
length of its last line. -/
theorem Place.afterText_start (t : Text) :
    start.afterText t = ⟨1 + t.count (char '\n'), 1 + (Text.lastLine t).length⟩ := by
  induction t using List.reverseRecOn with
  | nil => rfl
  | append_singleton t c ih =>
    rw [afterText_append, ih, Text.lastLine_concat, List.count_append]
    by_cases hc : c = '\n'
    · subst hc
      simp [afterText, after, Int.add_assoc]
    · simp [afterText, after, hc, Int.add_assoc]

namespace Token

/-- A part of a text, from the index of its first character up to the index behind its last one. -/
structure Span where
  start : Nat
  stop : Nat
  deriving DecidableEq, Repr

namespace Span

/-- The characters of a span. -/
def cut (s : Span) (source : Text) : Text :=
  (source.take s.stop).drop s.start

/-- Whether the character at an index belongs to a span. -/
def Covers (s : Span) (i : Nat) : Prop :=
  s.start ≤ i ∧ i < s.stop

end Span

/-- Whether a token is read from a span of a text: it has the place where the span starts, and the
value that is written there. -/
structure WrittenAt (source : Text) (t : PlacedToken) (s : Span) : Prop where
  start_lt_stop : s.start < s.stop
  stop_le_length : s.stop ≤ source.length
  line : t.line = 1 + (source.take s.start).count (char '\n')
  column : t.column = 1 + (Text.lastLine (source.take s.start)).length
  spelt : t.toToken.SpeltAs (s.cut source)

/-- Whether a character of a text can be skipped behind some tokens: it is a blank, a caret in front
of a line break or of the end, or an `@` where a statement may start. -/
inductive Skippable (source : Text) (before : List PlacedToken) (i : Nat) : Prop
  | blank {c : CodePoint} : source[i]? = some c → Text.isBlank c = true → Skippable source before i
  | caret : source[i]? = some (char '^') →
      (source[i + 1]? = none ∨ source[i + 1]? = some (char '\n')) →
      Skippable source before i
  | hide : source[i]? = some (char '@') → MayStart before → Skippable source before i

/-- A text from an index on, behind some tokens, as the spans of the later tokens and skipped
characters. -/
inductive Tiled (source : Text) : Nat → List PlacedToken → List PlacedToken → List Span → Prop
  | nil {done : List PlacedToken} : Tiled source source.length done [] []
  | gap {i : Nat} {done ts : List PlacedToken} {spans : List Span} :
      Skippable source done i → Tiled source (i + 1) done ts spans → Tiled source i done ts spans
  | token {t : PlacedToken} {done ts : List PlacedToken} {s : Span} {spans : List Span} :
      WrittenAt source t s → Tiled source s.stop (done ++ [t]) ts spans →
      Tiled source s.start done (t :: ts) (s :: spans)

/-! ## From the scanner -/

/-- Whether a mode is the one behind some tokens, but for the `@` signs that came later. -/
def Mode.Follows (m : Mode) (done : List PlacedToken) : Prop :=
  m = { behindTokens done with invisible := m.invisible }

namespace Mode.Follows

variable {m : Mode} {done : List PlacedToken} (h : m.Follows done)
include h

theorem hide (invisible : Bool) : Follows { m with invisible := invisible } done := by
  have hhide := congrArg (fun n : Mode => { n with invisible := invisible }) h
  exact hhide

/-- Where the mode says so, a statement may start behind the tokens. -/
theorem mayStart (hm : m.atHead = true) : MayStart done :=
  (atHead_behindTokens done).1 ((congrArg atHead h).symm.trans hm)

theorem sound : m.Sound :=
  h ▸ (sound_behindTokens done).hide m.invisible

/-- A token shows whether an `@` hides it, so the mode behind it is the one behind the tokens. -/
theorem pass (t : PlacedToken) : (m.pass t).Follows (done ++ [t]) := by
  have hpass : m.pass t = behindTokens (done ++ [t]) :=
    (congrArg (Mode.pass · t) h).trans (behindTokens_concat done t).symm
  rw [hpass]
  exact rfl

end Mode.Follows

/-- Whether a scanner at a place is behind the first part of a text and has the other part left. -/
structure Reached (source before rest : Text) (p : Place) : Prop where
  source_eq : source = before ++ rest
  place_eq : p = Place.start.afterText before

namespace Reached

variable {source before : Text} {p : Place}

/-- A scanner moves on by the text that it reads. -/
theorem read (raw : Text) {rest : Text} (h : Reached source before (raw ++ rest) p) :
    Reached source (before ++ raw) rest (p.afterText raw) :=
  ⟨by rw [h.source_eq, List.append_assoc], by rw [h.place_eq, Place.afterText_append]⟩

/-- The next two characters of a scanner are those of the source behind what has been read. -/
theorem getElem? {c : CodePoint} {cs : Text} (h : Reached source before (c :: cs) p) :
    source[before.length]? = some c ∧ source[before.length + 1]? = cs.head? := by
  rw [h.source_eq, List.getElem?_append_right (Nat.le_refl _),
    List.getElem?_append_right (Nat.le_add_right _ _), Nat.sub_self, Nat.add_sub_cancel_left,
    List.getElem?_cons_succ, List.head?_eq_getElem?]
  exact ⟨rfl, rfl⟩

/-- A token is read from the span of the piece that spells it. -/
theorem writtenAt {raw rest : Text} (h : Reached source before (raw ++ rest) p) (hraw : raw ≠ [])
    {t : Token} (ht : t.SpeltAs raw) (m : Mode) :
    WrittenAt source (placed t m p) ⟨before.length, (before ++ raw).length⟩ := by
  obtain ⟨rfl, rfl⟩ := h
  have htake : (before ++ (raw ++ rest)).take before.length = before := List.take_left' rfl
  have hcut : (Span.mk before.length (before ++ raw).length).cut (before ++ (raw ++ rest)) =
      raw := by
    rw [Span.cut, ← List.append_assoc, List.take_left' rfl, List.drop_left' rfl]
  have hpos := List.length_pos_iff.2 hraw
  constructor
  · simpa using hpos
  · simp
  · rw [htake, Place.afterText_start]
    rfl
  · rw [htake, Place.afterText_start]
    rfl
  · rw [hcut]
    exact ht

end Reached

/-- A character can be skipped if the rest of the text can be tiled. -/
theorem Tiled.skip {source before : Text} {done ts : List PlacedToken} {c : CodePoint}
    (hskip : Skippable source done before.length)
    (h : ∃ spans, Tiled source (before ++ [c]).length done ts spans) :
    ∃ spans, Tiled source before.length done ts spans := by
  obtain ⟨spans, hspans⟩ := h
  rw [List.length_append] at hspans
  exact ⟨spans, .gap hskip hspans⟩

/-- The steps of a scanner tile a text. -/
theorem Scans.tiled {source : Text} {m e : Mode} {p : Place} {t : Text} {ts : List PlacedToken}
    (h : Scans m p t ts e) : ∀ {before : Text} {done : List PlacedToken},
      Reached source before t p → m.Follows done →
        ∃ spans, Tiled source before.length done ts spans := by
  induction h with
  | nil =>
    intro before done hreached _
    obtain rfl : source = before := by rw [hreached.source_eq, List.append_nil]
    exact ⟨[], .nil⟩
  | @blank m e p c cs ts hc _ ih =>
    intro before done hreached hm
    exact Tiled.skip (.blank hreached.getElem?.1 hc) (ih (hreached.read [c]) hm)
  | @newLine m e p cs ts _ ih =>
    intro before done hreached hm
    obtain ⟨spans, hspans⟩ :=
      ih (hreached.read ['\n']) (hm.pass (placed (.ofKind .newLine) m p))
    have hne : [char '\n'] ≠ [] := List.cons_ne_nil _ _
    exact ⟨_, .token (hreached.writtenAt hne .newLine m) hspans⟩
  | @hide m e p cs ts hhead _ ih =>
    intro before done hreached hm
    exact Tiled.skip (.hide hreached.getElem?.1 (hm.mayStart hhead))
      (ih (hreached.read ['@']) (hm.hide true))
  | @token m e p c cs l ts _ hl _ ih =>
    intro before done hreached hm
    obtain ⟨happ, hne⟩ := Lexeme.read?_eq_some hl
    -- the span of a token is that of its lexeme, behind what has been reached
    rw [happ] at hreached
    have hmode := hm.pass (placed l.token m p)
    rw [Mode.pass_placed hm.sound hl] at hmode
    obtain ⟨spans, hspans⟩ := ih (hreached.read l.raw) hmode
    exact ⟨_, .token (hreached.writtenAt hne (Lexeme.read?_speltAs hl) m) hspans⟩
  | @skip m e p c cs ts hc hl _ ih =>
    intro before done hreached hm
    obtain ⟨rfl, hnext⟩ := Lexeme.eq_caret_of_read?_eq_none hc.1 hc.2.1 hl
    obtain ⟨hat, hbehind⟩ := hreached.getElem?
    rw [← hbehind] at hnext
    exact Tiled.skip (.caret hat hnext) (ih (hreached.read ['^']) hm)

/-! ## Tokens and gaps -/

namespace Tiled

variable {source : Text} {i : Nat} {done ts : List PlacedToken} {spans : List Span}

/-- The spans are those of the tokens, in order. -/
theorem written (h : Tiled source i done ts spans) : List.Forall₂ (WrittenAt source) ts spans := by
  induction h with
  | nil => exact .nil
  | gap _ _ ih => exact ih
  | token ht _ ih => exact .cons ht ih

/-- The spans follow one another from the index on. -/
theorem ordered (h : Tiled source i done ts spans) :
    (∀ s ∈ spans, i ≤ s.start) ∧ spans.Pairwise (fun s s' => s.stop ≤ s'.start) := by
  induction h with
  | nil => exact ⟨fun s hs => (by cases hs), .nil⟩
  | gap _ _ ih => exact ⟨fun s hs => Nat.le_of_succ_le (ih.1 s hs), ih.2⟩
  | @token t done ts s spans ht _ ih =>
    refine ⟨fun s' hs' => ?_, .cons ih.1 ih.2⟩
    rcases List.mem_cons.1 hs' with rfl | hs'
    · exact Nat.le_refl _
    · exact Nat.le_trans (Nat.le_of_lt ht.start_lt_stop) (ih.1 s' hs')

/-- A character outside of the spans is skipped, behind the tokens whose spans end before it. -/
theorem covered_or_skippable (h : Tiled source i done ts spans) : ∀ j, i ≤ j → j < source.length →
    (∃ s ∈ spans, s.Covers j) ∨
      ∃ k, (∀ s ∈ spans.take k, s.stop ≤ j) ∧ (∀ s ∈ spans.drop k, j < s.start) ∧
        Skippable source (done ++ ts.take k) j := by
  induction h with
  | nil => exact fun j hle hlt => absurd hlt (Nat.not_lt_of_le hle)
  | @gap i done ts spans hskip hrest ih =>
    intro j hle hlt
    -- the character that is skipped stands behind no further token
    rcases Nat.eq_or_lt_of_le hle with rfl | hlater
    · refine Or.inr ⟨0, fun s hs => (by cases hs), hrest.ordered.1, ?_⟩
      rwa [List.take_zero, List.append_nil]
    · exact ih j hlater hlt
  | @token t done ts s spans ht hrest ih =>
    intro j hle hlt
    rcases Nat.lt_or_ge j s.stop with hin | hbehind
    · exact Or.inl ⟨s, List.mem_cons_self, hle, hin⟩
    · rcases ih j hbehind hlt with ⟨s', hs', hcovers⟩ | ⟨k, hstop, hstart, hskip⟩
      · exact Or.inl ⟨s', List.mem_cons_of_mem s hs', hcovers⟩
      · refine Or.inr ⟨k + 1, fun s' hs' => ?_, hstart, ?_⟩
        · rcases List.mem_cons.1 hs' with rfl | hs'
          · exact hbehind
          · exact hstop s' hs'
        · rwa [List.append_assoc] at hskip

end Tiled

/-- **No character of a text is lost, used twice or moved.** The tokens are read from spans that
follow one another; a token has the place where its span starts, and the value that is written
there. Every character outside of the spans is a blank, a caret that protects nothing, or an `@`
where the tokens before it let a statement start. -/
theorem spans_of_text (source : Text) :
    ∃ spans : List Span, List.Forall₂ (WrittenAt source) (ofText source) spans ∧
      spans.Pairwise (fun s s' => s.stop ≤ s'.start) ∧
      ∀ i < source.length, (∃ s ∈ spans, s.Covers i) ∨
        ∃ k, (∀ s ∈ spans.take k, s.stop ≤ i) ∧ (∀ s ∈ spans.drop k, i < s.start) ∧
          Skippable source ((ofText source).take k) i := by
  obtain ⟨e, hscan⟩ := exists_scans_ofText source
  have hstart : Reached source [] source .start := ⟨rfl, rfl⟩
  have hmode : Mode.start.Follows [] := rfl
  obtain ⟨spans, htiled⟩ := hscan.tiled hstart hmode
  exact ⟨spans, htiled.written, htiled.ordered.2,
    fun i hi => htiled.covered_or_skippable i (Nat.zero_le i) hi⟩

end Token

end BatchScript
