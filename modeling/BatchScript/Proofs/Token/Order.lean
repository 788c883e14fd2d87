import BatchScript.Proofs.Token.LastLine
import BatchScript.Proofs.Token.Line

/-!
# What may follow what

The mode of a scanner is a function of the tokens that it has taken: where they let a statement
start, it stands at a head; where a comment is open, it reads a comment; and it hides what the last
token of the line hides. What the mode admits as the next token is then a law about the list of
tokens alone, whatever the text was and however its tokens were written.

> `atHead_behindTokens`, `inComment_behindTokens`: the mode behind some tokens, told from the
> tokens;
> `admits_ofText`: a token of a text is one that the tokens before it admit;
> `flags_of_line`: on a line the hidden tokens stand behind the others.
-/

namespace BatchScript

namespace Token

/-- Whether a token of this kind stands only where a statement may start. -/
def Kind.isHead : Kind → Bool
  | .echo | .echoLine | .exit | .goto | .label | .rem | .set => true
  | _ => false

namespace Mode

/-- The mode behind a token, which may end the line. -/
def pass (m : Mode) (t : PlacedToken) : Mode :=
  if t.endsLine then .start else m.behindToken t

/-- The mode behind the first tokens of a text. -/
def behindTokens (ts : List PlacedToken) : Mode :=
  ts.foldl pass .start

/-- Whether a scanner can take a token in a mode: the token is of a known kind, a head stands where
a statement may start, and what is hidden stays hidden. -/
structure Admits (m : Mode) (t : PlacedToken) : Prop where
  known : t.kind ∈ Kind.known
  head : t.kind.isHead = true → m.atHead = true
  flag : m.invisible = true → t.invisible = true

/-- Whether a scanner can take tokens in turn. -/
def AdmitsAll : Mode → List PlacedToken → Prop
  | _, [] => True
  | m, t :: ts => m.Admits t ∧ (m.pass t).AdmitsAll ts

/-- What can be taken in turn can be taken in two parts. -/
theorem AdmitsAll.append {ts us : List PlacedToken} :
    ∀ {m : Mode}, m.AdmitsAll (ts ++ us) → (ts.foldl pass m).AdmitsAll us := by
  induction ts with
  | nil => exact id
  | cons t ts ih => exact fun h => ih h.2

/-- What can be taken where more is hidden can be taken where less is. -/
theorem AdmitsAll.of_hide {m : Mode} {ts : List PlacedToken}
    (h : AdmitsAll { m with invisible := true } ts) : m.AdmitsAll ts := by
  cases ts with
  | nil => trivial
  | cons t ts =>
    obtain ⟨⟨hknown, hhead, hflag⟩, hrest⟩ := h
    exact ⟨⟨hknown, hhead, fun _ => hflag rfl⟩, hrest⟩

/-! ## The mode, told from the tokens -/

/-- The mode moves on with one more token. -/
theorem behindTokens_concat (ts : List PlacedToken) (t : PlacedToken) :
    behindTokens (ts ++ [t]) = (behindTokens ts).pass t := by
  rw [behindTokens, List.foldl_append]
  rfl

/-- Behind some tokens a scanner is in a sound mode. -/
theorem sound_behindTokens (ts : List PlacedToken) : (behindTokens ts).Sound := by
  cases ts using List.reverseRecOn with
  | nil => exact sound_start
  | append_singleton ts t =>
    rw [behindTokens_concat, pass]
    cases t.endsLine with
    | true => exact sound_start
    | false => exact sound_behind _ t.kind

/-- Behind some tokens a scanner reads a comment where one is open. -/
theorem inComment_behindTokens (ts : List PlacedToken) :
    (behindTokens ts).inComment = commentOpen ts := by
  induction ts using List.reverseRecOn with
  | nil => rfl
  | append_singleton ts t ih =>
    rw [behindTokens_concat, commentOpen_concat, pass, ← ih]
    cases t.endsLine with
    | true => rfl
    | false => simp [behindToken, behind]

/-- Behind some tokens a scanner stands at a head where they let a statement start. -/
theorem atHead_behindTokens (ts : List PlacedToken) :
    (behindTokens ts).atHead = true ↔ MayStart ts := by
  induction ts using List.reverseRecOn with
  | nil => exact ⟨fun _ => ⟨fun _ h => (by cases h), rfl⟩, fun _ => rfl⟩
  | append_singleton ts t _ =>
    -- the last token decides, and a comment that is open before it
    have hlast : (ts ++ [t]).getLast? = some t := List.getLast?_concat
    rw [behindTokens_concat, pass]
    cases ht : t.endsLine with
    | true =>
      have hk : t.kind = .newLine := beq_iff_eq.1 ht
      refine ⟨fun _ => ⟨fun u hu => ?_, ?_⟩, fun _ => rfl⟩
      · rw [hlast] at hu
        cases hu
        exact Or.inl hk
      · rw [commentOpen_concat, ht]
        rfl
    | false =>
      have hk : t.kind ≠ .newLine := fun hk => by simp [PlacedToken.endsLine, hk] at ht
      simp only [Bool.false_eq_true, if_false, behindToken, behind, Bool.and_eq_true,
        Bool.not_eq_true', inComment_behindTokens]
      constructor
      · rintro ⟨hchain, hcomment⟩
        refine ⟨fun u hu => ?_, ?_⟩
        · rw [hlast] at hu
          cases hu
          exact Or.inr hchain
        · rw [commentOpen_concat, hcomment]
          cases hkind : t.kind <;> simp_all [Kind.isChain]
      · rintro ⟨hbehind, hcomment⟩
        rw [commentOpen_concat, ht] at hcomment
        simp only [Bool.not_false, Bool.true_and, Bool.or_eq_false_iff] at hcomment
        exact ⟨(hbehind t hlast).resolve_left hk, hcomment.1⟩

end Mode

/-! ## The tokens of a text -/

namespace Lexeme

theorem mark?_kind {m : Mode} {t : Text} {l : Lexeme} (h : mark? m t = some l) :
    l.token.kind ∈ [Kind.rem, Kind.label] := by
  unfold mark? at h
  split at h <;> cases h <;> simp

theorem handle?_kind {m : Mode} {t : Text} {l : Lexeme} (h : handle? m t = some l) :
    l.token.kind = .word := by
  unfold handle? at h
  split at h
  · split at h
    · cases h
      rfl
    · cases h
  · cases h

/-- A lexeme is of a known kind, and a head stands where a statement may start. -/
theorem read?_kind {m : Mode} {t : Text} {l : Lexeme} (h : read? m t = some l) :
    l.token.kind ∈ Kind.known ∧ (l.token.kind.isHead = true → m.atHead = true) := by
  have hword : Kind.word ∈ Kind.known ∧ Kind.word.isHead = false := by decide
  have hmark : ∀ k ∈ [Kind.rem, Kind.label], k ∈ Kind.known := by decide
  have hkeyword : ∀ k ∈ Kind.keywords, k ∈ Kind.known := by decide
  have hoperator : ∀ k ∈ Kind.operators, k ∈ Kind.known ∧ k.isHead = false := by decide
  rcases read?_cases h with ⟨hm, h⟩ | ⟨-, ⟨-, h⟩ | ⟨kind, rest, hop, rfl⟩ | ⟨-, rfl⟩⟩
  · exact ⟨hmark _ (mark?_kind h), fun _ => hm⟩
  · rw [handle?_kind h]
    exact ⟨hword.1, fun hhead => absurd (hword.2.symm.trans hhead) Bool.false_ne_true⟩
  · obtain ⟨hknown, hhead⟩ := hoperator kind (operator?_eq_some_iff.1 hop).1
    exact ⟨hknown, fun h => absurd (hhead.symm.trans h) Bool.false_ne_true⟩
  · rcases ofWord_kind m (Word.read false t) with hk | ⟨hm, hk⟩
    · rw [hk]
      exact ⟨hword.1, fun hhead => absurd (hword.2.symm.trans hhead) Bool.false_ne_true⟩
    · exact ⟨hkeyword _ (List.mem_of_find?_eq_some hk), fun _ => hm⟩

end Lexeme

/-- Behind the token of a lexeme a scanner is in the mode that the lexeme leaves. -/
theorem Mode.pass_placed {m : Mode} {t : Text} {l : Lexeme} (hm : m.Sound)
    (hl : Lexeme.read? m t = some l) (p : Place) : m.pass (placed l.token m p) = l.mode := by
  have hline : (placed l.token m p).endsLine = false :=
    beq_eq_false_iff_ne.2 (Lexeme.read?_withinLine hl).1
  rw [pass, hline, Lexeme.read?_mode hm hl]
  rfl

/-- A scanner takes tokens that its mode admits. -/
theorem Scans.admitsAll {m e : Mode} {p : Place} {t : Text} {ts : List PlacedToken}
    (h : Scans m p t ts e) : m.Sound → m.AdmitsAll ts := by
  induction h with
  | nil => exact fun _ => trivial
  | blank _ _ ih | skip _ _ _ ih => exact ih
  | newLine _ ih =>
    have hnewLine : Kind.newLine ∈ Kind.known := by decide
    intro _
    exact ⟨⟨hnewLine, fun hhead => (by cases hhead), id⟩, ih Mode.sound_start⟩
  | hide _ _ ih =>
    intro hm
    exact (ih (hm.hide true)).of_hide
  | @token m e p c cs l ts _ hl _ ih =>
    intro hm
    obtain ⟨hknown, hhead⟩ := Lexeme.read?_kind hl
    refine ⟨⟨hknown, hhead, id⟩, ?_⟩
    rw [Mode.pass_placed hm hl]
    exact ih (Lexeme.read?_mode hm hl ▸ Mode.sound_behind m l.token.kind)

/-- The later tokens of a text can be taken behind the earlier ones. -/
theorem admitsAll_ofText {t : Text} {before after : List PlacedToken}
    (h : ofText t = before ++ after) : (Mode.behindTokens before).AdmitsAll after := by
  obtain ⟨e, hscan⟩ := exists_scans_ofText t
  have hall := hscan.admitsAll Mode.sound_start
  rw [h] at hall
  exact hall.append

/-- A token of a text is one that the tokens before it admit. -/
theorem admits_ofText {t : Text} {before after : List PlacedToken} {u : PlacedToken}
    (h : ofText t = before ++ u :: after) : (Mode.behindTokens before).Admits u :=
  (admitsAll_ofText h).1

/-- A head stands where the tokens before it let a statement start. -/
theorem mayStart_of_isHead {t : Text} {before after : List PlacedToken} {u : PlacedToken}
    (h : ofText t = before ++ u :: after) (hu : u.kind.isHead = true) : MayStart before :=
  (Mode.atHead_behindTokens before).1 ((admits_ofText h).head hu)

/-! ## Hidden tokens -/

/-- Tokens of one line that are taken in turn: some that are not hidden, and then some that are. -/
theorem Mode.AdmitsAll.flags {line after : List PlacedToken} :
    ∀ {m : Mode}, m.AdmitsAll (line ++ after) → (∀ t ∈ line.dropLast, t.endsLine = false) →
      ∃ shown hidden, line.map (·.invisible) =
          List.replicate shown false ++ List.replicate hidden true ∧
        (m.invisible = true → shown = 0) := by
  induction line with
  | nil => exact fun _ _ => ⟨0, 0, rfl, fun _ => rfl⟩
  | cons t line ih =>
    intro m h hline
    obtain ⟨hadmits, hrest⟩ := h
    have hbehind : ∃ shown hidden, line.map (·.invisible) =
        List.replicate shown false ++ List.replicate hidden true ∧
          (t.invisible = true → shown = 0) := by
      cases line with
      | nil => exact ⟨0, 0, rfl, fun _ => rfl⟩
      | cons u us =>
        -- the token is not the last one, so it does not end the line and its flag goes on
        have ht : t.endsLine = false := hline t List.mem_cons_self
        have hpass : (m.pass t).invisible = t.invisible := by
          rw [pass, ht]
          rfl
        rw [← hpass]
        exact ih hrest fun v hv => hline v (List.mem_cons_of_mem t hv)
    obtain ⟨shown, hidden, hflags, hnone⟩ := hbehind
    cases ht : t.invisible with
    | true =>
      obtain rfl := hnone ht
      refine ⟨0, hidden + 1, ?_, fun _ => rfl⟩
      rw [List.map_cons, ht, hflags, List.replicate_succ]
      rfl
    | false =>
      refine ⟨shown + 1, hidden, ?_, fun hm => ?_⟩
      · rw [List.map_cons, ht, hflags, List.replicate_succ, List.cons_append]
      · rw [hadmits.flag hm] at ht
        cases ht

/-- On a line of a text, its line break included, the hidden tokens stand behind the others. -/
theorem flags_of_line {t : Text} {before line after : List PlacedToken}
    (h : ofText t = before ++ (line ++ after)) (hline : ∀ u ∈ line.dropLast, u.endsLine = false) :
    ∃ shown hidden, line.map (·.invisible) =
      List.replicate shown false ++ List.replicate hidden true := by
  obtain ⟨shown, hidden, hflags, -⟩ := (admitsAll_ofText h).flags hline
  exact ⟨shown, hidden, hflags⟩

end Token

end BatchScript
