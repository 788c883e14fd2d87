import BatchScript.Proofs.Token.LineBreak
import BatchScript.Proofs.Token.Lookahead
import BatchScript.Proofs.Token.Spans

/-!
# Where an `@` hides the rest of a line

The mode says whether an `@` has hidden the line, and an `@` does so where the scanner skips it.
This is told here from the text alone: behind what stands in front of it a statement may start, and
no caret protects it (`HidesLastLine`).

> `Scans.invisible_iff`: what the mode at the end of a text hides;
> `scan_in_two_parts`: two texts with a line break between them are scanned in turn.
-/

namespace BatchScript

namespace Token

/-! ## The mode behind a text -/

/-- The mode at the end of a text that is read from a mode on. -/
def Mode.behindText (m : Mode) (t : Text) : Mode :=
  (Scanner.mk m .start t).drain.2.mode

/-- The mode behind a text is that at the end of its scan. -/
theorem Scans.behindText_eq {m e : Mode} {p : Place} {t : Text} {ts : List PlacedToken}
    (h : Scans m p t ts e) : m.behindText t = e := by
  obtain ⟨us, hus, -⟩ := h.move (R := fun _ _ => True) (fun _ _ _ _ => trivial) trivial
  rw [Mode.behindText, hus.drain_eq]

namespace Mode

theorem behindText_nil (m : Mode) : m.behindText [] = m :=
  (Scans.nil (m := m) (p := .start)).behindText_eq

theorem behindText_blank {c : CodePoint} (hc : Text.isBlank c = true) (m : Mode) (cs : Text) :
    m.behindText (c :: cs) = m.behindText cs := by
  obtain ⟨ts, e, h⟩ := exists_scans m (Place.start.after c) cs
  rw [(Scans.blank hc h).behindText_eq, h.behindText_eq]

theorem behindText_newLine (m : Mode) (cs : Text) :
    m.behindText (char '\n' :: cs) = start.behindText cs := by
  obtain ⟨ts, e, h⟩ := exists_scans start (Place.start.after '\n') cs
  rw [(Scans.newLine h).behindText_eq, h.behindText_eq]

theorem behindText_hide {m : Mode} (hm : m.atHead = true) (cs : Text) :
    m.behindText (char '@' :: cs) = { m with invisible := true }.behindText cs := by
  obtain ⟨ts, e, h⟩ := exists_scans { m with invisible := true } (Place.start.after '@') cs
  rw [(Scans.hide hm h).behindText_eq, h.behindText_eq]

theorem behindText_token {m : Mode} {c : CodePoint} {cs : Text} {l : Lexeme} (hc : StartsLexeme m c)
    (hl : Lexeme.read? m (c :: cs) = some l) :
    m.behindText (c :: cs) = l.mode.behindText l.rest := by
  obtain ⟨ts, e, h⟩ := exists_scans l.mode (Place.start.afterText l.raw) l.rest
  rw [(Scans.token hc hl h).behindText_eq, h.behindText_eq]

theorem behindText_skip {m : Mode} {c : CodePoint} {cs : Text} (hc : StartsLexeme m c)
    (hl : Lexeme.read? m (c :: cs) = none) : m.behindText (c :: cs) = m.behindText cs := by
  obtain ⟨ts, e, h⟩ := exists_scans m (Place.start.after c) cs
  rw [(Scans.skip hc hl h).behindText_eq, h.behindText_eq]

/-! ## Signs that hide -/

/-- Whether the last line of a text that is read from a mode on has an `@` where a statement may
start and no caret protects it. -/
def Hides (m : Mode) (t : Text) : Prop :=
  ∃ before after, t = before ++ char '@' :: after ∧ char '\n' ∉ after ∧
    (m.behindText before).atHead = true ∧ before.getLast? ≠ some (char '^')

theorem not_hides_nil (m : Mode) : ¬m.Hides [] := by
  rintro ⟨before, after, h, -⟩
  simp at h

theorem getLast?_of_append (raw : Text) {x : Text} (h : (raw ++ x).getLast? ≠ some (char '^')) :
    x.getLast? ≠ some (char '^') := by
  cases x with
  | nil => simp
  | cons c cs => rwa [List.getLast?_append_of_ne_nil _ (List.cons_ne_nil c cs)] at h

theorem getLast?_append (raw : Text) {x : Text} (hraw : x = [] → raw.getLast? ≠ some (char '^'))
    (h : x.getLast? ≠ some (char '^')) : (raw ++ x).getLast? ≠ some (char '^') := by
  cases x with
  | nil => rw [List.append_nil]; exact hraw rfl
  | cons c cs => rwa [List.getLast?_append_of_ne_nil _ (List.cons_ne_nil c cs)]

/-- A piece of a text in which no `@` hides can be left out, if what follows is read as before. -/
theorem hides_append_iff {m m' : Mode} (raw : Text) {rest : Text}
    (hbehind : ∀ x : Text, x.StartsLike rest → m.behindText (raw ++ x) = m'.behindText x)
    (hinside : ∀ x y, raw = x ++ char '@' :: y → (m.behindText x).atHead = true →
      x.getLast? = some (char '^'))
    (hcaret : rest.head? = some (char '@') → m'.atHead = true → raw.getLast? ≠ some (char '^')) :
    m.Hides (raw ++ rest) ↔ m'.Hides rest := by
  constructor
  · -- the `@` stands behind the piece, or at its end, or inside of it
    rintro ⟨before, after, happ, hline, hhead, hlast⟩
    rcases List.append_eq_append_iff.1 happ with ⟨x, rfl, rfl⟩ | ⟨x, rfl, hx⟩
    · rw [hbehind x (Text.startsLike_append x _)] at hhead
      exact ⟨x, after, rfl, hline, hhead, getLast?_of_append raw hlast⟩
    · cases x with
      | nil =>
        have hsame := hbehind [] (Or.inl rfl)
        rw [List.append_nil, List.append_nil] at hsame
        rw [hsame] at hhead
        exact ⟨[], after, hx.symm, hline, hhead, by simp⟩
      | cons c cs =>
        obtain ⟨rfl, -⟩ := List.cons.inj hx
        exact absurd (hinside before cs rfl hhead) hlast
  · rintro ⟨before, after, rfl, hline, hhead, hlast⟩
    refine ⟨raw ++ before, after, by rw [List.append_assoc], hline, ?_, ?_⟩
    · rwa [hbehind before (Text.startsLike_append before _)]
    · refine getLast?_append raw (fun hnil => ?_) hlast
      subst hnil
      rw [behindText_nil] at hhead
      exact hcaret rfl hhead

/-- So can a character that is no `@`. -/
theorem hides_cons_iff {m m' : Mode} {c : CodePoint} {cs : Text} (hc : c ≠ '@')
    (hbehind : ∀ x : Text, x.StartsLike cs → m.behindText (c :: x) = m'.behindText x)
    (hcaret : c = '^' → cs.head? ≠ some (char '@')) : m.Hides (c :: cs) ↔ m'.Hides cs := by
  refine hides_append_iff [c] hbehind (fun x y hraw => ?_) fun hhead _ => ?_
  · have hmem : char '@' ∈ [c] := hraw ▸ List.mem_append_right x List.mem_cons_self
    exact absurd (List.mem_singleton.1 hmem).symm hc
  · rw [List.getLast?_singleton, ne_eq, Option.some.injEq]
    exact fun hc => hcaret hc hhead

/-- An `@` where a statement may start hides its line. -/
theorem hides_at_iff {m : Mode} (hm : m.atHead = true) (cs : Text) :
    m.Hides (char '@' :: cs) ↔ char '\n' ∉ cs ∨ Hides { m with invisible := true } cs := by
  constructor
  · rintro ⟨_ | ⟨c, before⟩, after, happ, hline, hhead, hlast⟩
    · cases happ
      exact Or.inl hline
    · obtain ⟨rfl, rfl⟩ := List.cons.inj happ
      rw [behindText_hide hm] at hhead
      exact Or.inr ⟨before, after, rfl, hline, hhead, getLast?_of_append ['@'] hlast⟩
  · rintro (hline | ⟨before, after, rfl, hline, hhead, hlast⟩)
    · exact ⟨[], cs, rfl, hline, by rwa [behindText_nil], by simp⟩
    · refine ⟨char '@' :: before, after, rfl, hline, by rwa [behindText_hide hm], ?_⟩
      exact getLast?_append ['@'] (fun _ => by decide) hlast

end Mode

/-- An operator that chains is written with no caret at its end. -/
theorem SpeltAs.getLast?_of_isChain {t : Token} {raw : Text} (h : t.SpeltAs raw)
    (hchain : t.kind.isChain = true) : raw.getLast? ≠ some (char '^') := by
  have hoperator : ∀ k ∈ Kind.operators, k.fixedText.getLast? ≠ some (char '^') := by decide
  cases h with
  | operator hk => exact hoperator _ hk
  | keyword hk =>
    rw [(isChain_keyword (List.mem_of_find?_eq_some hk)).1] at hchain
    cases hchain
  | newLine | label | comment | word => cases hchain

namespace Lexeme

/-- A lexeme holds no line break. -/
theorem not_mem_raw {m : Mode} {t : Text} {l : Lexeme} (h : read? m t = some l) :
    char '\n' ∉ l.raw := by
  intro hmem
  obtain ⟨x, y, hraw⟩ := List.append_of_mem hmem
  have happ := (read?_eq_some h).1
  -- it would be the lexeme in front of its own line break
  have hfront := read?_append_newLine m x (y ++ l.rest)
  rw [show x ++ char '\n' :: (y ++ l.rest) = t by rw [happ, hraw]; simp, h] at hfront
  obtain ⟨l', hl', hsame⟩ := Option.map_eq_some_iff.1 hfront.symm
  have hlen := congrArg List.length (read?_eq_some hl').1
  have hlen' := congrArg (fun l => l.raw.length) hsame
  have hlen'' := congrArg List.length hraw
  simp only [followedBy, List.length_append, List.length_cons] at hlen hlen' hlen''
  omega

/-- A lexeme behind which a statement may start ends with no caret. -/
theorem getLast?_raw {m : Mode} {t : Text} {l : Lexeme} (hm : m.Sound)
    (h : read? m t = some l) (hhead : l.mode.atHead = true) : l.raw.getLast? ≠ some (char '^') := by
  rw [read?_mode hm h, Mode.behind, Bool.and_eq_true] at hhead
  exact (read?_speltAs h).getLast?_of_isChain hhead.1

/-- In a lexeme no `@` hides. -/
theorem read?_inside {m : Mode} {c : CodePoint} {cs x y : Text} {l : Lexeme} (hm : m.Sound)
    (hc : StartsLexeme m c) (h : read? m (c :: cs) = some l) (hraw : l.raw = x ++ char '@' :: y)
    (hhead : (m.behindText x).atHead = true) : x.getLast? = some (char '^') := by
  have happ := (read?_eq_some h).1
  rw [hraw] at happ
  cases x with
  | nil =>
    rw [Mode.behindText_nil] at hhead
    obtain ⟨rfl, -⟩ := List.cons.inj happ
    exact absurd ⟨rfl, hhead⟩ hc.2.2
  | cons d ds =>
    obtain ⟨rfl, -⟩ := List.cons.inj happ
    rcases read?_front hm h (List.cons_ne_nil _ _) hraw with hlast | ⟨l', hl', hrest, hl'head⟩
    · exact hlast
    · rw [Mode.behindText_token hc hl', hrest, Mode.behindText_nil, hl'head] at hhead
      cases hhead

/-- A caret in front of a line break protects nothing where the text ends or goes on with another
line. -/
theorem read?_caret_eq_none {m : Mode} {cs x : Text} (h : read? m (char '^' :: cs) = none)
    (hx : x.StartsLike cs) : read? m (char '^' :: x) = none := by
  obtain ⟨-, hcs⟩ := eq_caret_of_read?_eq_none (by decide) (by decide) h
  -- a line break does not change what the caret is
  have hbreak : ∀ u, read? m (char '^' :: char '\n' :: u) = none ↔ read? m ['^'] = none := by
    intro u
    have happend := read?_append_newLine m ['^'] u
    rw [List.singleton_append] at happend
    rw [happend, Option.map_eq_none_iff]
  have halone : read? m ['^'] = none := by
    rcases hcs with hcs | hcs
    · rwa [List.head?_eq_none_iff.1 hcs] at h
    · obtain ⟨u, rfl⟩ := List.head?_eq_some_iff.1 hcs
      exact (hbreak u).1 h
  rcases x with _ | ⟨d, ds⟩
  · exact halone
  · rcases hx with hx | hx
    · cases hx
    · rcases hcs with hcs | hcs
      · rw [hcs] at hx
        cases hx
      · rw [hcs] at hx
        cases hx
        exact (hbreak ds).2 halone

end Lexeme

/-- The mode at the end of a text hides if an `@` on its last line does, or if the text is one line
and the mode before it hides. -/
theorem Scans.invisible_iff {m e : Mode} {p : Place} {t : Text} {ts : List PlacedToken}
    (h : Scans m p t ts e) : m.Sound →
      (e.invisible = true ↔ m.Hides t ∨ (m.invisible = true ∧ char '\n' ∉ t)) := by
  induction h with
  | @nil m p =>
    intro _
    simp [Mode.not_hides_nil]
  | @blank m e p c cs ts hc _ ih =>
    intro hm
    have hother : c ≠ '@' ∧ c ≠ '^' ∧ c ≠ '\n' := by
      refine ⟨?_, ?_, ?_⟩ <;> (rintro rfl; revert hc; decide)
    have hiff : m.Hides (c :: cs) ↔ m.Hides cs :=
      Mode.hides_cons_iff hother.1 (fun x _ => Mode.behindText_blank hc m x)
        fun hcaret => absurd hcaret hother.2.1
    rw [ih hm, hiff, List.mem_cons, not_or]
    simp only [Ne.symm hother.2.2, not_false_eq_true, true_and]
  | @newLine m e p cs ts _ ih =>
    intro hm
    have hiff : m.Hides (char '\n' :: cs) ↔ Mode.start.Hides cs :=
      Mode.hides_cons_iff (by decide) (fun x _ => Mode.behindText_newLine m x)
        fun hcaret => absurd hcaret (by decide)
    rw [ih Mode.sound_start, hiff]
    simp [Mode.start]
  | @hide m e p cs ts hhead _ ih =>
    intro hm
    have hline : char '\n' ∉ char '@' :: cs ↔ char '\n' ∉ cs := by simp
    rw [ih (hm.hide true), Mode.hides_at_iff hhead, hline]
    simp only [true_and]
    tauto
  | @token m e p c cs l ts hc hl _ ih =>
    intro hm
    obtain ⟨happ, hne⟩ := Lexeme.read?_eq_some hl
    have hmode := Lexeme.read?_mode hm hl
    -- the lexeme is read again in front of a later text, so it leaves the same mode there
    have hsame : ∀ x : Text, x.StartsLike l.rest →
        m.behindText (l.raw ++ x) = l.mode.behindText x := by
      intro x hx
      have hl' := Lexeme.read?_raw_append hl hx
      obtain ⟨d, raw, hraw⟩ := List.exists_cons_of_ne_nil hne
      rw [hraw] at happ hl' ⊢
      obtain ⟨rfl, -⟩ := List.cons.inj happ
      exact Mode.behindText_token hc hl'
    have hiff : m.Hides (l.raw ++ l.rest) ↔ l.mode.Hides l.rest :=
      Mode.hides_append_iff l.raw hsame
        (fun x y hraw hhead => Lexeme.read?_inside hm hc hl hraw hhead)
        fun _ hhead => Lexeme.getLast?_raw hm hl hhead
    -- a lexeme neither ends the line nor hides it
    have hline : char '\n' ∉ l.raw ++ l.rest ↔ char '\n' ∉ l.rest := by
      simp [Lexeme.not_mem_raw hl]
    have hflag : l.mode.invisible = m.invisible := by rw [hmode]; rfl
    rw [ih (hmode ▸ Mode.sound_behind m l.token.kind), happ, hiff, hline, hflag]
  | @skip m e p c cs ts hc hl _ ih =>
    intro hm
    obtain ⟨rfl, hnext⟩ := Lexeme.eq_caret_of_read?_eq_none hc.1 hc.2.1 hl
    have hsame : ∀ x : Text, x.StartsLike cs → m.behindText (char '^' :: x) = m.behindText x :=
      fun x hx => Mode.behindText_skip hc (Lexeme.read?_caret_eq_none hl hx)
    have hiff : m.Hides (char '^' :: cs) ↔ m.Hides cs := by
      refine Mode.hides_cons_iff (by decide) hsame fun _ hhead => ?_
      rw [hhead] at hnext
      simp at hnext
    rw [ih hm, hiff]
    simp

/-! ## Two texts -/

/-- The mode at the end of a text is the one behind its tokens, but for the `@` signs behind the
last of them. -/
theorem Scans.follows {m e : Mode} {p : Place} {t : Text} {ts : List PlacedToken}
    (h : Scans m p t ts e) : ∀ done : List PlacedToken, m.Follows done →
      e.Follows (done ++ ts) := by
  induction h with
  | nil =>
    intro done hm
    rwa [List.append_nil]
  | blank _ _ ih | skip _ _ _ ih => exact ih
  | hide _ _ ih => exact fun done hm => ih done (hm.hide true)
  | @newLine m e p cs ts _ ih =>
    intro done hm
    rw [List.append_cons]
    exact ih _ (hm.pass (placed (.ofKind .newLine) m p))
  | @token m e p c cs l ts _ hl _ ih =>
    intro done hm
    have hmode := hm.pass (placed l.token m p)
    rw [Mode.pass_placed hm.sound hl] at hmode
    rw [List.append_cons]
    exact ih _ hmode

/-- Behind a text a statement may start exactly where its tokens let one start. -/
theorem atHead_behindText_iff (t : Text) :
    (Mode.start.behindText t).atHead = true ↔ MayStart (ofText t) := by
  obtain ⟨e, h⟩ := exists_scans_ofText t
  have hfollows : e.Follows (ofText t) := h.follows [] rfl
  rw [h.behindText_eq, ← Mode.atHead_behindTokens]
  exact Eq.to_iff (congrArg (·.atHead = true) hfollows)

/-- Whether the last line of a text has an `@` that hides what follows: the tokens of the text in
front of it let a statement start, and no caret stands directly before it. -/
def HidesLastLine (t : Text) : Prop :=
  ∃ before after, t = before ++ char '@' :: after ∧ char '\n' ∉ after ∧ MayStart (ofText before) ∧
    before.getLast? ≠ some (char '^')

/-- The condition on a text is the one on a scan from the start. -/
theorem hidesLastLine_iff (t : Text) : HidesLastLine t ↔ Mode.start.Hides t := by
  simp only [HidesLastLine, Mode.Hides, atHead_behindText_iff]

/-- **Texts are scanned in two parts.** The tokens of a text, a line break and another text are
those of the first text, the line break, and those of the second text, which are further down and
otherwise as they are. The line break stands behind the first text; it is hidden exactly if an `@`
on the last line of the first text hides what follows. Nothing else of the first text is left behind
the line break, whatever it ends in. -/
theorem scan_in_two_parts (a b : Text) : ∃ hidden : Bool,
    ofText (a ++ char '\n' :: b) =
      ofText a ++
        ⟨⟨.newLine, ['\n']⟩, hidden, 1 + a.count (char '\n'), 1 + (Text.lastLine a).length⟩ ::
          (ofText b).map (·.down (a.count (char '\n') + 1)) ∧
      (hidden = true ↔ HidesLastLine a) := by
  obtain ⟨e, ha⟩ := exists_scans_ofText a
  refine ⟨e.invisible, ?_, ?_⟩
  · rw [ha.ofText_append_newLine, Place.afterText_start]
    rfl
  · rw [hidesLastLine_iff, ha.invisible_iff Mode.sound_start]
    simp [Mode.start]

end Token

end BatchScript
