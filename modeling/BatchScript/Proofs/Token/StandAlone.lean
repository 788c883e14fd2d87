import BatchScript.Proofs.Token.LineBreak
import BatchScript.Proofs.Token.Respelled

/-!
# Words that stand for themselves behind one another

Words that are written behind a command with a space before each are scanned as they are where each
stands for itself and none but the last leaves quotes open (`StandAlone`). This is also what the
tokens of a line say of the words among them, so it is all that is needed.

> `bare_standAlone`: such words are scanned as they are;
> `Line.standAlone`: the words of a line are such words.
-/

namespace BatchScript

namespace Token

namespace Word

/-- A word that holds something, no line break, and no character of an operator. -/
structure OperatorFree (w : Text) : Prop where
  ne_nil : w ≠ []
  within_line : char '\n' ∉ w
  no_operator : ∀ c ∈ w, isOperatorChar c = false

/-- Words of which each stands for itself, and none but the last leaves quotes open. -/
structure StandAlone (ws : List Text) : Prop where
  verbatim : ∀ w ∈ ws, isVerbatim false w = true
  closed : ∀ w ∈ ws.dropLast, isOpen false w = false

instance (ws : List Text) : Decidable (StandAlone ws) :=
  decidable_of_iff ((∀ w ∈ ws, isVerbatim false w = true) ∧
    ∀ w ∈ ws.dropLast, isOpen false w = false) ⟨fun h => ⟨h.1, h.2⟩, fun h => ⟨h.1, h.2⟩⟩

theorem standAlone_nil : StandAlone [] :=
  ⟨by simp, by simp⟩

/-- Words stand alone if the first one does, the others do, and only the last one leaves quotes
open. -/
theorem standAlone_cons {w : Text} {ws : List Text} : StandAlone (w :: ws) ↔
    isVerbatim false w = true ∧ (isOpen false w = true → ws = []) ∧ StandAlone ws := by
  cases ws with
  | nil =>
    refine ⟨fun h => ⟨h.verbatim w List.mem_cons_self, fun _ => rfl, standAlone_nil⟩,
      fun ⟨hw, _, _⟩ => ⟨by simpa using hw, by simp⟩⟩
  | cons v vs =>
    constructor
    · intro h
      have hclosed := h.closed
      rw [List.dropLast_cons_cons, List.forall_mem_cons] at hclosed
      refine ⟨h.verbatim w List.mem_cons_self, fun hopen => ?_,
        fun u hu => h.verbatim u (List.mem_cons_of_mem w hu), hclosed.2⟩
      rw [hclosed.1] at hopen
      cases hopen
    · rintro ⟨hw, hopen, hvs⟩
      refine ⟨List.forall_mem_cons.2 ⟨hw, hvs.verbatim⟩, ?_⟩
      rw [List.dropLast_cons_cons, List.forall_mem_cons]
      refine ⟨?_, hvs.closed⟩
      rw [Bool.eq_false_iff]
      exact fun h => absurd (hopen h) (List.cons_ne_nil v vs)

end Word

/-! ## The words of a text -/

/-- A lexeme stands for something. -/
theorem Lexeme.value_ne_nil {m : Mode} {t : Text} {l : Lexeme} (h : read? m t = some l) :
    l.token.value ≠ [] := by
  rcases read?_cases h with ⟨-, h⟩ | ⟨-, ⟨-, h⟩ | ⟨kind, rest, hop, rfl⟩ | ⟨hne, rfl⟩⟩
  · unfold mark? at h
    split at h <;> cases h <;> exact List.cons_ne_nil _ _
  · unfold handle? at h
    split at h
    · split at h
      · cases h
        exact List.cons_ne_nil _ _
      · cases h
    · cases h
  · exact (operator?_eq_some hop).2
  · exact hne

/-- Every token of a text holds something. -/
theorem Scans.value_ne_nil {m e : Mode} {p : Place} {t : Text} {ts : List PlacedToken}
    (h : Scans m p t ts e) : ∀ u ∈ ts, u.value ≠ [] := by
  induction h with
  | nil => simp
  | blank _ _ ih | hide _ _ ih | skip _ _ _ ih => exact ih
  | newLine _ ih => exact List.forall_mem_cons.2 ⟨List.cons_ne_nil _ _, ih⟩
  | token _ hl _ ih => exact List.forall_mem_cons.2 ⟨Lexeme.value_ne_nil hl, ih⟩

/-- The words of a text without operator characters. -/
theorem operatorFree_of_mem {t : Text} {u : PlacedToken} (hu : u ∈ ofText t)
    (hword : u.isWord = true) (hops : u.value.any isOperatorChar = false) :
    Word.OperatorFree u.value := by
  obtain ⟨e, h⟩ := exists_scans_ofText t
  exact ⟨h.value_ne_nil u hu, (withinLine_of_isWord hu hword).2, by simpa using hops⟩

/-! ## Written and scanned -/

/-- The tokens of words in a mode that they do not change. -/
def wordTokens (m : Mode) (words : List Text) : List PlacedToken :=
  words.map fun w => bareToken ⟨.word, w⟩ m

theorem map_value_wordTokens (m : Mode) (words : List Text) :
    (wordTokens m words).map (·.value) = words := by
  rw [wordTokens, List.map_map]
  exact List.map_id words

theorem isWord_wordTokens (m : Mode) (words : List Text) :
    ∀ u ∈ wordTokens m words, u.isWord = true := by
  intro u hu
  obtain ⟨w, -, rfl⟩ := List.mem_map.1 hu
  rfl

/-- Words that stand for themselves behind one another are scanned as they are. What follows them
does not start in open quotes if there are more such words among it. -/
theorem bare_standAlone {m : Mode} (hm : m.atHead = false) (hr : m.afterRedirection = false)
    {tail : Text} (htail : Text.BehindPiece tail) {more : List Text} (hmore : more = [] → tail = [])
    {ws : List Text} : (∀ w ∈ ws, w ≠ []) → Word.StandAlone (ws ++ more) →
      bare m (Text.spaced ws ++ tail) = wordTokens m ws ++ bare m tail := by
  induction ws with
  | nil => exact fun _ _ => rfl
  | cons w ws ih =>
    intro hne h
    rw [List.cons_append, Word.standAlone_cons] at h
    obtain ⟨hw, hopen, hws⟩ := h
    rw [List.forall_mem_cons] at hne
    -- only the last word may leave quotes open, and then nothing follows it
    have hlast : Word.isOpen false w = true → Text.spaced ws ++ tail = [] := by
      intro h
      obtain ⟨rfl, rfl⟩ := List.append_eq_nil_iff.1 (hopen h)
      rw [hmore rfl]
      rfl
    have hhead : m.atHead = true →
        Kind.keyword? w = none ∧ w.head? ≠ some (char '@') ∧ w.head? ≠ some (char ':') := by
      rw [hm]
      intro h
      cases h
    rw [Text.spaced_cons, List.cons_append, bare_space, List.append_assoc,
      bare_word hne.1 hw (behindPiece_spaced_append ws htail) hlast hhead,
      Mode.behind_word hm hr, ih hne.2 hws]
    rfl

/-! ## The words of a line -/

/-- A word of a line without operator characters is no handle, so it stands for itself. -/
theorem Fits.isVerbatim {m : Mode} {t : Token} (h : Fits m t) (hk : t.kind = .word)
    (hop : ∀ c ∈ t.value, isOperatorChar c = false) : Word.isVerbatim false t.value = true := by
  rcases h.isVerbatim_or_handle hk with hv | ⟨-, w, hvalue, -⟩
  · exact hv
  · rw [hvalue] at hop
    cases hop '&' List.mem_cons_self

/-- The words of a line that hold no operator character stand for themselves behind one another,
also with more such words behind them, if there is something on the line that these come from. -/
theorem Line.standAlone {rest : List PlacedToken} {more : List Text}
    (hrest : rest = [] → more = []) (hmore : Word.StandAlone more) {words : List PlacedToken} :
    ∀ {m : Mode}, (∀ w ∈ words, w.isWord = true) → (∀ w ∈ words, Word.OperatorFree w.value) →
      Line m (words ++ rest) → Word.StandAlone (words.map (·.value) ++ more) := by
  induction words with
  | nil => exact fun _ _ _ => hmore
  | cons w words ih =>
    intro m hwords hfree h
    rw [List.forall_mem_cons] at hwords hfree
    have hk := PlacedToken.isWord_iff.1 hwords.1
    rw [List.map_cons, List.cons_append, Word.standAlone_cons]
    refine ⟨h.fits.isVerbatim hk hfree.1.no_operator, fun hopen => ?_, ih hwords.2 hfree.2 h.rest⟩
    obtain ⟨rfl, hnil⟩ := List.append_eq_nil_iff.1 (h.closed hk hopen)
    rw [hrest hnil]
    rfl

end Token

end BatchScript
