import BatchScript.Proofs.Token.Line
import BatchScript.Proofs.Token.Written

/-!
# Lines that are spelled out again

The tokens of a line, each spelled in its own way behind a space, are scanned as tokens of the same
kinds with the same spellings, in the same order.

> `bare_spelling`: one token, with anything behind it that starts with a space;
> `bare_spellings`: some tokens at the front of a line, with the rest of the line behind them.
-/

namespace BatchScript

/-- Tokens of one kind with one spelling. -/
structure PlacedToken.SameSpelling (t u : PlacedToken) : Prop where
  kind : t.kind = u.kind
  spelling : t.spelling = u.spelling

theorem PlacedToken.SameSpelling.trans {t u v : PlacedToken} (h : t.SameSpelling u)
    (h' : u.SameSpelling v) : t.SameSpelling v :=
  ⟨h.kind.trans h'.kind, h.spelling.trans h'.spelling⟩

namespace Token

/-- A token with a usual spelling is written as all tokens of its kind are. -/
theorem spelling_eq_fixedText {t : Token} (h : t.kind.spelling? ≠ none) :
    t.spelling = t.kind.fixedText := by
  obtain ⟨text, htext⟩ := Option.ne_none_iff_exists'.1 h
  rw [spelling, Kind.fixedText, htext]
  rfl

/-- A token spelled out again, with the flag of the mode in which it is read then. -/
def respelled (t : Token) (m : Mode) : PlacedToken :=
  bareToken ⟨t.kind, t.spelling⟩ m

theorem spelling_respelled (t : Token) (m : Mode) : (respelled t m).spelling = t.spelling := by
  show t.kind.spelling?.getD t.spelling = t.spelling
  rw [spelling]
  cases t.kind.spelling? <;> rfl

theorem sameSpelling_respelled (t : PlacedToken) (m : Mode) :
    t.SameSpelling (respelled t.toToken m) :=
  ⟨rfl, (spelling_respelled t.toToken m).symm⟩

/-! ## What a token tells of its mode -/

theorem Fits.spelling_ne_nil {m : Mode} {t : Token} (h : Fits m t) : t.spelling ≠ [] := by
  have hkeyword : ∀ k ∈ Kind.keywords, ∀ v, (Token.mk k v).spelling ≠ [] := by
    simp [Kind.keywords, spelling, Kind.spelling?]
  have hoperator : ∀ k ∈ Kind.operators, ∀ v, (Token.mk k v).spelling ≠ [] := by
    simp [Kind.operators, spelling, Kind.spelling?, Redirection.Kind.spelling]
  cases h with
  | word hne => exact hne
  | handle => exact List.cons_ne_nil _ _
  | keyword _ hk => exact hkeyword _ hk _
  | label => exact List.cons_ne_nil _ _
  | operator hk => exact hoperator _ hk _

/-- A keyword or a label stands only where a statement may start. -/
theorem Fits.atHead {m : Mode} {t : Token} (h : Fits m t)
    (hk : t.kind ∈ Kind.keywords ∨ t.kind = .label) : m.atHead = true := by
  have hword : ¬(Kind.word ∈ Kind.keywords ∨ Kind.word = .label) := by decide
  have hoperator : ∀ k ∈ Kind.operators, ¬(k ∈ Kind.keywords ∨ k = .label) := by decide
  cases h with
  | word => exact absurd hk hword
  | handle => exact absurd hk hword
  | keyword hm => exact hm
  | label hm => exact hm
  | operator hop => exact absurd hk (hoperator _ hop)

/-- The tokens of a line are no line breaks, and its words hold none. -/
theorem Fits.kind_ne_newLine {m : Mode} {t : Token} (h : Fits m t) : t.kind ≠ .newLine := by
  have hkeyword : .newLine ∉ Kind.keywords := by decide
  have hoperator : .newLine ∉ Kind.operators := by decide
  cases h with
  | word | handle | label => simp
  | keyword _ hk =>
    rintro rfl
    exact hkeyword hk
  | operator hk =>
    rintro rfl
    exact hoperator hk

theorem Fits.withinLine {m : Mode} {t : Token} (h : Fits m t) (hk : t.kind = .word) :
    t.WithinLine := by
  refine ⟨h.kind_ne_newLine, ?_⟩
  rcases h.isVerbatim_or_handle hk with hv | ⟨-, w, hvalue, hv⟩
  · exact Word.not_mem_of_isVerbatim hv
  · rw [hvalue, List.mem_cons, not_or]
    exact ⟨by decide, Word.not_mem_of_isVerbatim hv⟩

/-! ## One token -/

/-- A token that is spelled out again is scanned as a token of its kind. -/
theorem bare_spelling {m : Mode} {t : Token} {tail : Text} (hm : m.Sound) (h : Fits m t)
    (htail : Text.BehindPiece tail)
    (hopen : t.kind = .word → Word.isOpen false t.value = true → tail = []) :
    bare m (t.spelling ++ tail) = respelled t m :: bare (m.behind t.kind) tail := by
  have hkeyword : ∀ k ∈ Kind.keywords, k.spelling? ≠ none := by decide
  have hoperator : ∀ k ∈ Kind.operators, k.spelling? ≠ none := by decide
  cases h with
  | word hne hv hhead => exact bare_word hne hv htail (hopen rfl) hhead
  | handle hr hhead hd hv => exact bare_handle hr hhead hd hv htail (hopen rfl)
  | @keyword kind v hhead hk =>
    rw [respelled, spelling_eq_fixedText (hkeyword kind hk)]
    exact bare_keyword hhead hk htail
  | label hhead =>
    have hcolon : tail.head? ≠ some (char ':') := fun hc => by cases htail _ hc
    exact bare_label hhead (hm.noRedirection hhead) hcolon
  | @operator kind v hk =>
    rw [respelled, spelling_eq_fixedText (hoperator kind hk)]
    exact bare_operator_piece hk htail

/-- Behind a token the line goes on, also in a mode that hides less. -/
theorem Line.rest {m : Mode} {t : PlacedToken} {ts : List PlacedToken} (h : Line m (t :: ts)) :
    Line (m.behind t.kind) ts := by
  cases h with
  | cons hflag _ _ hrest => exact hrest.of_hidesLess ⟨rfl, rfl, rfl, hflag⟩

/-- Behind a command that is hidden again the line goes on. -/
theorem Line.rest_hide {m : Mode} {t : PlacedToken} {ts : List PlacedToken}
    (h : Line m (t :: ts)) : Line ((m.hide t.invisible).behind t.kind) ts := by
  cases h with
  | cons hflag _ _ hrest =>
    refine hrest.of_hidesLess ⟨rfl, rfl, rfl, fun hi => ?_⟩
    rcases Bool.or_eq_true_iff.1 hi with hi | hi
    · exact hflag hi
    · exact hi

/-- The first token of a line is one that the mode allows. -/
theorem Line.fits {m : Mode} {t : PlacedToken} {ts : List PlacedToken} (h : Line m (t :: ts)) :
    Fits m t.toToken := by
  cases h with
  | cons _ hfits => exact hfits

/-- The flag of a command, and what is hidden already, come to the flag. -/
theorem Line.flag {m : Mode} {t : PlacedToken} {ts : List PlacedToken} (h : Line m (t :: ts)) :
    (m.invisible || t.invisible) = t.invisible := by
  cases h with
  | cons hflag =>
    cases hm : m.invisible with
    | false => rfl
    | true =>
      rw [hflag hm]
      rfl

/-- A word that leaves quotes open is the last one of its line. -/
theorem Line.closed {m : Mode} {t : PlacedToken} {ts : List PlacedToken} (h : Line m (t :: ts))
    (hk : t.kind = .word) (hopen : Word.isOpen false t.value = true) : ts = [] := by
  cases h with
  | cons _ _ hclosed => exact hclosed (PlacedToken.isWord_iff.2 hk) hopen

/-! ## Tokens in turn -/

/-- The mode behind some tokens. -/
def Mode.behindAll (m : Mode) (ts : List PlacedToken) : Mode :=
  ts.foldl (fun m t => m.behind t.kind) m

/-- Where no statement may start, behind no redirection, words leave the mode as it is. -/
theorem Mode.behindAll_words {m : Mode} {words : List PlacedToken} (hm : m.atHead = false)
    (hr : m.afterRedirection = false) (hwords : ∀ w ∈ words, w.isWord = true) :
    m.behindAll words = m := by
  induction words with
  | nil => rfl
  | cons w words ih =>
    have hk : w.kind = .word := PlacedToken.isWord_iff.1 (hwords w List.mem_cons_self)
    rw [behindAll, List.foldl_cons, hk, behind_word hm hr]
    exact ih fun w' hw' => hwords w' (List.mem_cons_of_mem w hw')

/-- Behind its first tokens a line goes on from the mode behind these. -/
theorem Line.rest_append {m : Mode} {ts rest : List PlacedToken} (h : Line m (ts ++ rest)) :
    Line (m.behindAll ts) rest := by
  induction ts generalizing m with
  | nil => exact h
  | cons t ts ih => exact ih h.rest

/-- A mode stays sound behind tokens. -/
theorem Mode.Sound.behindAll {m : Mode} (hm : m.Sound) (ts : List PlacedToken) :
    (m.behindAll ts).Sound := by
  induction ts generalizing m with
  | nil => exact hm
  | cons t ts ih => exact ih (sound_behind m t.kind)

theorem behindPiece_spaced_append (ts : List Text) {tail : Text} (h : Text.BehindPiece tail) :
    Text.BehindPiece (Text.spaced ts ++ tail) := by
  cases ts with
  | nil => exact h
  | cons t ts => exact Text.behindPiece_space _

/-- Tokens at the front of a line that are spelled out again. -/
theorem bare_spellings {ts rest : List PlacedToken} {tail : Text} (htail : Text.BehindPiece tail)
    (hnil : rest = [] → tail = []) : ∀ {m : Mode}, m.Sound → Line m (ts ++ rest) →
      ∃ us, bare m (Text.spaced (ts.map (·.spelling)) ++ tail) =
          us ++ bare (m.behindAll ts) tail ∧
        List.Forall₂ PlacedToken.SameSpelling ts us := by
  induction ts with
  | nil =>
    intro m _ _
    exact ⟨[], rfl, .nil⟩
  | cons t ts ih =>
    intro m hm h
    obtain ⟨us, hus, hsame⟩ := ih (Mode.sound_behind m t.kind) h.rest
    -- a word that leaves a quote open is the last one, so nothing is written behind it
    have hopen : t.kind = .word → Word.isOpen false t.value = true →
        Text.spaced (ts.map (·.spelling)) ++ tail = [] := by
      intro hk hquote
      obtain ⟨rfl, rfl⟩ := List.append_eq_nil_iff.1 (h.closed hk hquote)
      rw [hnil rfl]
      rfl
    have hfirst := bare_spelling hm h.fits (behindPiece_spaced_append _ htail) hopen
    refine ⟨respelled t.toToken m :: us, ?_, .cons (sameSpelling_respelled t m) hsame⟩
    rw [List.map_cons, Text.spaced_cons, List.cons_append, bare_space, List.append_assoc, hfirst,
      hus]
    rfl

end Token

end BatchScript
