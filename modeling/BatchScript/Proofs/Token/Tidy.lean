import BatchScript.Proofs.Text.Lines
import BatchScript.Proofs.Token.Respelled

/-!
# Comments that are spelled as they are written

The text of a comment is the spellings of its tokens with a space between neighbours. Scanned again
it may come to other tokens, since quotes that were written with carets now open quoted parts. Still
the tokens are spelled as the text is where it is tidy: outside of quotes there are no carets, no
tabs and carriage returns, and a space only by itself between two other characters.

The pieces of the text between spaces carry the argument. Each is an operator or holds none, so a
word ends where a piece does, and the quotes that a piece leaves open join it to the next one.

> `spaced_spelling_of_isTidy`: a tidy text that is made of pieces is spelled as it is written;
> `Line.isTidy`: what the tokens of a line are spelled as is tidy.
-/

namespace BatchScript

namespace Token

/-- Whether a text is tidy, in quotes or outside of them, behind a space or not. -/
def isTidy : (quoted afterSpace : Bool) → Text → Bool
  | quoted, afterSpace, [] => quoted || !afterSpace
  | true, _, c :: cs => isTidy (c != '"') false cs
  | false, afterSpace, c :: cs =>
    if c = ' ' then !afterSpace && isTidy false true cs
    else c != '^' && !Text.isBlank c && isTidy (c == '"') false cs

/-- A piece of a comment between spaces: an operator, or a text that holds none. -/
structure IsPiece (p : Text) : Prop where
  no_space : char ' ' ∉ p
  within_line : char '\n' ∉ p
  operator : (∃ kind ∈ Kind.operators, p = kind.fixedText) ∨ ∀ c ∈ p, isOperatorChar c = false

/-! ## Tidy texts -/

theorem isTidy_quoted (afterSpace : Bool) (c : CodePoint) (cs : Text) :
    isTidy true afterSpace (c :: cs) = isTidy (c != '"') false cs := by
  cases afterSpace <;> rfl

theorem isTidy_space (afterSpace : Bool) (cs : Text) :
    isTidy false afterSpace (char ' ' :: cs) = (!afterSpace && isTidy false true cs) := by
  cases afterSpace <;> rfl

/-- Outside of quotes a character other than a space is tidy if it is neither a caret nor a
blank. -/
theorem isTidy_other {c : CodePoint} (hc : c ≠ ' ') (afterSpace : Bool) (cs : Text) :
    isTidy false afterSpace (c :: cs) =
      (c != '^' && !Text.isBlank c && isTidy (c == '"') false cs) := by
  cases afterSpace <;> simp [isTidy, hc]

/-- Inside of quotes it does not matter what stands in front. -/
theorem isTidy_true (afterSpace : Bool) (t : Text) :
    isTidy true afterSpace t = isTidy true false t := by
  cases t with
  | nil => rfl
  | cons c cs => rw [isTidy_quoted, isTidy_quoted]

/-- Behind a word that stands for itself a text is as tidy as by itself. -/
theorem isTidy_verbatim_append {v : Text} (u : Text) :
    ∀ {quoted : Bool} (afterSpace : Bool), v ≠ [] → Word.isVerbatim quoted v = true →
      isTidy quoted afterSpace (v ++ u) = isTidy (Word.isOpen quoted v) false u := by
  induction v with
  | nil => exact fun _ h => absurd rfl h
  | cons c cs ih =>
    intro quoted afterSpace _ hv
    rw [Word.isVerbatim, Bool.and_eq_true] at hv
    -- the first character
    have hfirst : isTidy quoted afterSpace (c :: (cs ++ u)) =
        isTidy (quoted != (c == '"')) false (cs ++ u) := by
      cases quoted with
      | true =>
        rw [isTidy_quoted]
        simp [bne]
      | false =>
        have hplain : Word.isPlain c = true := hv.1
        have hblank := (not_isOperatorChar_of_isPlain hplain).2.1
        have hspace : c ≠ ' ' := by
          rintro rfl
          cases hblank
        rw [isTidy_other hspace, hblank]
        simp [Word.ne_caret_of_isPlain hplain]
    rw [List.cons_append, hfirst, Word.isOpen_cons]
    cases cs with
    | nil => rfl
    | cons d ds => exact ih false (List.cons_ne_nil d ds) hv.2

/-- Behind characters of no sort that tidiness looks at a text is as tidy as by itself. -/
theorem isTidy_append_of_forall {v : Text} (u : Text) : ∀ (afterSpace : Bool), v ≠ [] →
    (∀ c ∈ v, Text.isBlank c = false ∧ c ≠ '^' ∧ c ≠ '"') →
      isTidy false afterSpace (v ++ u) = isTidy false false u := by
  induction v with
  | nil => exact fun _ h => absurd rfl h
  | cons c cs ih =>
    intro afterSpace _ hv
    rw [List.forall_mem_cons] at hv
    obtain ⟨⟨hblank, hcaret, hquote⟩, hcs⟩ := hv
    have hspace : c ≠ ' ' := by
      rintro rfl
      cases hblank
    have hfirst : isTidy false afterSpace (c :: (cs ++ u)) = isTidy false false (cs ++ u) := by
      rw [isTidy_other hspace, hblank, beq_eq_false_iff_ne.2 hquote]
      simp [hcaret]
    rw [List.cons_append, hfirst]
    cases cs with
    | nil => rfl
    | cons d ds => exact ih false (List.cons_ne_nil d ds) hcs

theorem isTidy_operator_append {kind : Kind} (hk : kind ∈ Kind.operators) (afterSpace : Bool)
    (u : Text) : isTidy false afterSpace (kind.fixedText ++ u) = isTidy false false u := by
  have hall : ∀ k ∈ Kind.operators, k.fixedText ≠ [] ∧
      k.fixedText.all (fun c => !Text.isBlank c && c != '^' && c != '"') = true := by decide
  obtain ⟨hne, hchars⟩ := hall kind hk
  exact isTidy_append_of_forall u afterSpace hne (by simpa [and_assoc] using hchars)

/-! ## The tokens of a comment -/

/-- Behind a token of a comment a text is as tidy as by itself, or as it is in the quotes that the
token leaves open. -/
theorem Fits.isTidy_append {m : Mode} {t : Token} (h : Fits m t) (hm : m.atHead = false)
    (u : Text) :
    ∃ quoted, isTidy false true (t.spelling ++ u) = isTidy quoted false u ∧
      (quoted = true → t.kind = .word ∧ Word.isOpen false t.value = true) := by
  have hoperator : ∀ k ∈ Kind.operators, k.spelling? ≠ none := by decide
  cases h with
  | @word v hne hv =>
    exact ⟨_, isTidy_verbatim_append u true hne hv, fun hopen => ⟨rfl, hopen⟩⟩
  | @handle d ds _ _ _ hv =>
    refine ⟨_, ?_, fun hopen => ⟨rfl, hopen⟩⟩
    have hrest := isTidy_verbatim_append u false (List.cons_ne_nil d ds) hv
    show isTidy false true (char '&' :: (d :: ds ++ u)) = _
    rw [isTidy_other (by decide), Word.isOpen_cons]
    exact hrest
  | keyword hhead | label hhead =>
    rw [hm] at hhead
    cases hhead
  | operator hk =>
    refine ⟨false, ?_, fun h => by cases h⟩
    rw [spelling_eq_fixedText (hoperator _ hk)]
    exact isTidy_operator_append hk true u

/-- Behind any token a comment goes on. -/
theorem Mode.behind_comment {m : Mode} (hm : m.inComment = true) (kind : Kind) :
    (m.behind kind).atHead = false ∧ (m.behind kind).inComment = true := by
  rw [behind, hm]
  exact ⟨Bool.and_false _, rfl⟩

/-- What the tokens of a comment are spelled as is tidy. -/
theorem Line.isTidy {ts : List PlacedToken} : ∀ {m : Mode}, m.atHead = false → m.inComment = true →
    Line m ts → ts ≠ [] →
      Token.isTidy false true (Text.joinWords (ts.map (·.spelling))) = true := by
  induction ts with
  | nil => exact fun _ _ _ h => absurd rfl h
  | cons t ts ih =>
    intro m hm hc hline _
    obtain ⟨quoted, htidy, hopen⟩ :=
      hline.fits.isTidy_append hm (Text.spaced (ts.map (·.spelling)))
    rw [List.map_cons, Text.joinWords_cons, htidy]
    cases ts with
    | nil => cases quoted <;> rfl
    | cons u us =>
      obtain ⟨hhead, hcomment⟩ := Mode.behind_comment hc t.kind
      have hrest := ih hhead hcomment hline.rest (List.cons_ne_nil u us)
      -- only the last token leaves quotes open
      cases quoted with
      | true =>
        obtain ⟨hk, hquote⟩ := hopen rfl
        cases hline.closed hk hquote
      | false =>
        rw [Text.spaced_eq_cons_joinWords (by simp), isTidy_space]
        exact hrest

/-! ## The pieces of a text -/

/-- Operators and texts without operator characters are made of pieces. -/
theorem exists_isPiece {ws : List Text} : (∀ w ∈ ws, char '\n' ∉ w ∧
    ((∃ kind ∈ Kind.operators, w = kind.fixedText) ∨ ∀ c ∈ w, isOperatorChar c = false)) →
      ∃ ps : List Text, Text.spaced ps = Text.spaced ws ∧ ∀ p ∈ ps, IsPiece p := by
  have hoperator : ∀ k ∈ Kind.operators, char ' ' ∉ k.fixedText := by decide
  induction ws with
  | nil => exact fun _ => ⟨[], rfl, by simp⟩
  | cons w ws ih =>
    intro h
    rw [List.forall_mem_cons] at h
    obtain ⟨⟨hline, hw⟩, hws⟩ := h
    obtain ⟨ps, hspaced, hps⟩ := ih hws
    -- an operator is a piece by itself, and a text is cut at its spaces
    have hfirst : ∃ qs : List Text, qs ≠ [] ∧ Text.joinWords qs = w ∧ ∀ q ∈ qs, IsPiece q := by
      rcases hw with ⟨kind, hk, rfl⟩ | hfree
      · refine ⟨[kind.fixedText], by simp, Text.joinWords_singleton _, ?_⟩
        exact List.forall_mem_singleton.2 ⟨hoperator kind hk, hline, Or.inl ⟨kind, hk, rfl⟩⟩
      · have hjoin : Text.joinWords (w.splitOn (char ' ')) = w :=
          List.intercalate_splitOn (char ' ')
        have hmem : ∀ q ∈ w.splitOn (char ' '), ∀ c ∈ q, c ∈ w := by
          intro q hq c hc
          rw [← hjoin]
          exact Text.mem_joinWords_of_mem hq hc
        refine ⟨w.splitOn (char ' '), List.splitOn_ne_nil (char ' ') w, hjoin, fun q hq => ?_⟩
        exact ⟨(Text.splitOn_spec ' ' w).1 q hq, fun hn => hline (hmem q hq _ hn),
          Or.inr fun c hc => hfree c (hmem q hq c hc)⟩
    obtain ⟨qs, hne, hjoin, hqs⟩ := hfirst
    refine ⟨qs ++ ps, ?_, List.forall_mem_append.2 ⟨hqs, hps⟩⟩
    rw [Text.spaced_append, Text.spaced_eq_cons_joinWords hne, hjoin, hspaced, Text.spaced_cons]
    rfl

/-! ## Words across pieces -/

/-- A text in two parts stands for itself if both parts do. -/
theorem Word.isVerbatim_append (t u : Text) : ∀ quoted : Bool, isVerbatim quoted (t ++ u) =
    (isVerbatim quoted t && isVerbatim (isOpen quoted t) u) := by
  induction t with
  | nil => exact fun _ => rfl
  | cons c cs ih =>
    intro quoted
    rw [List.cons_append, isVerbatim, ih, isVerbatim, isOpen_cons, Bool.and_assoc]

/-- A tidy piece without operator characters stands for itself. -/
theorem isVerbatim_of_isTidy {p : Text} (u : Text) : ∀ {quoted afterSpace : Bool}, char ' ' ∉ p →
    char '\n' ∉ p → (∀ c ∈ p, isOperatorChar c = false) → isTidy quoted afterSpace (p ++ u) = true →
      Word.isVerbatim quoted p = true := by
  induction p with
  | nil => exact fun _ _ _ _ => rfl
  | cons c cs ih =>
    intro quoted afterSpace hspace hline hop h
    rw [List.mem_cons, not_or] at hspace hline
    rw [List.forall_mem_cons] at hop
    rw [Word.isVerbatim, Bool.and_eq_true]
    rw [List.cons_append] at h
    cases quoted with
    | true =>
      -- inside of quotes all but a line break stands for itself
      rw [isTidy_quoted] at h
      have hstep : (true != (c == '"')) = (c != '"') := by simp [bne]
      refine ⟨by simpa [Word.isOwn] using Ne.symm hline.1, ?_⟩
      rw [hstep]
      exact ih hspace.2 hline.2 hop.2 h
    | false =>
      rw [isTidy_other (Ne.symm hspace.1), Bool.and_eq_true, Bool.and_eq_true] at h
      have hstep : (false != (c == '"')) = (c == '"') := by simp
      refine ⟨?_, ?_⟩
      · simpa [Word.isOwn, Word.isPlain, hop.1, Ne.symm hline.1, and_comm] using h.1
      · rw [hstep]
        exact ih hspace.2 hline.2 hop.2 h.2

/-- A tidy piece stands for itself, if it is no operator or stands in quotes. -/
theorem IsPiece.isVerbatim {p u : Text} {quoted afterSpace : Bool} (hp : IsPiece p)
    (hop : quoted = false → ∀ c ∈ p, isOperatorChar c = false)
    (h : isTidy quoted afterSpace (p ++ u) = true) : Word.isVerbatim quoted p = true := by
  have hoperator : ∀ k ∈ Kind.operators, Word.isVerbatim true k.fixedText = true := by decide
  cases quoted with
  | false => exact isVerbatim_of_isTidy u hp.no_space hp.within_line (hop rfl) h
  | true =>
    rcases hp.operator with ⟨kind, hk, rfl⟩ | hfree
    · exact hoperator kind hk
    · exact isVerbatim_of_isTidy u hp.no_space hp.within_line hfree h

/-- The pieces of a tidy text up to the first behind which no quotes are open. -/
theorem exists_front {ps : List Text} : ∀ {quoted afterSpace : Bool}, ps ≠ [] →
    (∀ p ∈ ps, IsPiece p) →
    (quoted = false → ∀ p, ps.head? = some p → p ≠ [] ∧ ∀ c ∈ p, isOperatorChar c = false) →
    isTidy quoted afterSpace (Text.joinWords ps) = true →
      ∃ front back, ps = front ++ back ∧ front ≠ [] ∧
        Word.isVerbatim quoted (Text.joinWords front) = true ∧
        (Word.isOpen quoted (Text.joinWords front) = true → back = []) ∧
        (back ≠ [] → isTidy false true (Text.joinWords back) = true) := by
  induction ps with
  | nil => exact fun h => absurd rfl h
  | cons p ps ih =>
    intro quoted afterSpace _ hps hfirst h
    rw [List.forall_mem_cons] at hps
    rw [Text.joinWords_cons] at h
    have hverbatim := hps.1.isVerbatim (fun hq => (hfirst hq p rfl).2) h
    have hrest : isTidy (Word.isOpen quoted p) false (Text.spaced ps) = true := by
      by_cases hp : p = []
      · -- an empty piece stands in quotes
        cases quoted with
        | false => exact absurd hp (hfirst rfl p rfl).1
        | true =>
          rw [hp, List.nil_append, isTidy_true] at h
          rw [hp]
          exact h
      · rwa [isTidy_verbatim_append _ afterSpace hp hverbatim] at h
    cases hopen : Word.isOpen quoted p with
    | false =>
      refine ⟨[p], ps, rfl, by simp, ?_, fun h => ?_, fun hne => ?_⟩
      · rwa [Text.joinWords_singleton]
      · rw [Text.joinWords_singleton, hopen] at h
        cases h
      · rw [hopen, Text.spaced_eq_cons_joinWords hne, isTidy_space] at hrest
        exact hrest
    | true =>
      by_cases hne : ps = []
      · subst hne
        refine ⟨[p], [], rfl, by simp, ?_, fun _ => rfl, fun h => absurd rfl h⟩
        rwa [Text.joinWords_singleton]
      · -- the quotes reach over the space into the next piece
        rw [hopen, Text.spaced_eq_cons_joinWords hne, isTidy_quoted] at hrest
        obtain ⟨front, back, rfl, hfront, hv, hclosed, hback⟩ :=
          ih hne hps.2 (fun hq => (by cases hq)) hrest
        have hjoin : Text.joinWords (p :: front) = p ++ char ' ' :: Text.joinWords front := by
          rw [Text.joinWords_cons, Text.spaced_eq_cons_joinWords hfront]
        refine ⟨p :: front, back, rfl, by simp, ?_, fun h => ?_, hback⟩
        · rw [hjoin, Word.isVerbatim_append, hverbatim, hopen]
          exact hv
        · rw [hjoin, Word.isOpen_append, hopen] at h
          exact hclosed h

/-! ## Spelled as written -/

/-- A tidy comment that is made of pieces is spelled as it is written. -/
theorem spaced_spelling_of_isTidy : ∀ (ps : List Text) {m : Mode}, m.atHead = false →
    m.inComment = true → (∀ p ∈ ps, IsPiece p) →
    (ps ≠ [] → isTidy false true (Text.joinWords ps) = true) →
      Text.spaced ((bare m (Text.spaced ps)).map (·.spelling)) = Text.spaced ps
  | [], m, _, _, _, _ => by
    show Text.spaced ((bare m []).map (·.spelling)) = []
    rw [bare_nil]
    rfl
  | p :: ps, m, hm, hc, hps, htidy => by
    have hp := (List.forall_mem_cons.1 hps).1
    have htidy' := htidy (List.cons_ne_nil p ps)
    rcases hp.operator with ⟨kind, hk, rfl⟩ | hfree
    · -- an operator is a token of its own
      have hnone : ∀ k ∈ Kind.operators, k.spelling? ≠ none := by decide
      obtain ⟨hhead, hcomment⟩ := Mode.behind_comment hc kind
      rw [Text.joinWords_cons, isTidy_operator_append hk] at htidy'
      have hrest := spaced_spelling_of_isTidy ps hhead hcomment (List.forall_mem_cons.1 hps).2
        fun hne => by
          rw [Text.spaced_eq_cons_joinWords hne, isTidy_space] at htidy'
          exact htidy'
      have hspelling : (bareToken ⟨kind, kind.fixedText⟩ m).spelling = kind.fixedText :=
        spelling_eq_fixedText (hnone kind hk)
      rw [Text.spaced_cons, bare_space, bare_operator_piece hk (Text.behindPiece_spaced ps),
        List.map_cons, Text.spaced_cons, hrest, hspelling]
    · -- a word takes the pieces up to the end of its quotes
      have hne : p ≠ [] := by
        rintro rfl
        rw [Text.joinWords_cons] at htidy'
        cases ps with
        | nil => cases htidy'
        | cons q qs =>
          rw [Text.spaced_cons, List.nil_append, isTidy_space] at htidy'
          cases htidy'
      obtain ⟨front, back, hcut, hfront, hv, hopen, hback⟩ :=
        exists_front (List.cons_ne_nil p ps) hps
          (fun _ q hq => by cases hq; exact ⟨hne, hfree⟩) htidy'
      have hword : Text.joinWords front ≠ [] := by
        cases front with
        | nil => exact absurd rfl hfront
        | cons q qs =>
          obtain ⟨rfl, -⟩ := List.cons.inj hcut
          exact Text.joinWords_ne_nil hne qs
      have hlen : back.length < (p :: ps).length := by
        have hpos := List.length_pos_iff.2 hfront
        rw [hcut, List.length_append]
        omega
      obtain ⟨hhead, hcomment⟩ := Mode.behind_comment hc .word
      have hrest := spaced_spelling_of_isTidy back hhead hcomment
        (fun q hq => hps q (by rw [hcut]; exact List.mem_append_right front hq)) hback
      have hnone : m.atHead = true → Kind.keyword? (Text.joinWords front) = none ∧
          (Text.joinWords front).head? ≠ some (char '@') ∧
            (Text.joinWords front).head? ≠ some (char ':') := by
        rw [hm]
        intro h
        cases h
      rw [hcut, Text.spaced_append, Text.spaced_eq_cons_joinWords hfront, List.cons_append,
        bare_space, bare_word hword hv (Text.behindPiece_spaced back)
          (fun h => by rw [hopen h]; rfl) hnone, List.map_cons, Text.spaced_cons, hrest]
      rfl
  termination_by ps => ps.length
  decreasing_by
  · exact Nat.lt_succ_self ps.length
  · exact hlen

end Token

end BatchScript
