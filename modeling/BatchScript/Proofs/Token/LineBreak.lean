import BatchScript.Proofs.Token.Lexeme
import BatchScript.Proofs.Token.Scans

/-!
# Scanning starts afresh at every line break

A lexeme never reaches over a line break: behind an open quote, a caret, an operator that could be
longer, a redirection that could take a handle, the scanner meets a line break as it meets the end
of the text. The line break itself puts back the mode and the column.

> `Scans.append_newLine`: scanning a text, a line break and another text is scanning the two texts
> in turn;
> `ofText_append_newLine`: the tokens behind the line break are those of the second text, further
> down;
> `ofText_within_line`: no token of a line reaches out of it.
-/

namespace BatchScript

/-- The place some lines further down. -/
def Place.down (p : Place) (lines : Int) : Place :=
  ⟨p.line + lines, p.column⟩

theorem Place.after_down (p : Place) (lines : Int) (c : CodePoint) :
    (p.down lines).after c = (p.after c).down lines := by
  unfold after
  split
  · simp only [down, Place.mk.injEq, and_true]
    omega
  · rfl

/-- Behind a text and a line break a place is at the start of a line, further down by the line
breaks. -/
theorem Place.afterText_newLine (t : Text) :
    ∀ p : Place, (p.afterText t).after '\n' = ⟨p.line + t.count (char '\n') + 1, 1⟩ := by
  induction t with
  | nil => intro p; simp [afterText, after]
  | cons c cs ih =>
    intro p
    rw [afterText, List.foldl_cons, ← afterText, ih]
    by_cases hc : c = '\n'
    · subst hc
      rw [List.count_cons_self, Place.mk.injEq, after, if_pos rfl]
      exact ⟨by push_cast; omega, rfl⟩
    · rw [List.count_cons_of_ne hc, after, if_neg hc]

/-- The token some lines further down. -/
def PlacedToken.down (t : PlacedToken) (lines : Int) : PlacedToken :=
  { t with line := t.line + lines }

namespace Token

/-- A text, a line break and another text are scanned in turn, the second from the start of a
line. -/
theorem Scans.append_newLine {m e e' : Mode} {p : Place} {a b : Text} {ts us : List PlacedToken}
    (ha : Scans m p a ts e) (hb : Scans .start ((p.afterText a).after '\n') b us e') :
    Scans m p (a ++ char '\n' :: b)
      (ts ++ placed (.ofKind .newLine) e (p.afterText a) :: us) e' := by
  induction ha with
  | nil => exact .newLine hb
  | blank hc _ ih => exact .blank hc (ih hb)
  | newLine _ ih => exact .newLine (ih hb)
  | hide hm _ ih => exact .hide hm (ih hb)
  | @token m e p c cs l ts hc hl _ ih =>
    have hl' : Lexeme.read? m (c :: (cs ++ char '\n' :: b)) =
        some (l.followedBy (char '\n' :: b)) := by
      rw [← List.cons_append, Lexeme.read?_append_newLine, hl]
      rfl
    have hplace : p.afterText (c :: cs) = (p.afterText l.raw).afterText l.rest := by
      rw [(Lexeme.read?_eq_some hl).1, Place.afterText_append]
    rw [hplace] at hb ⊢
    exact .token (l := l.followedBy (char '\n' :: b)) hc hl' (ih hb)
  | @skip m e p c cs ts hc hl _ ih =>
    have hl' : Lexeme.read? m (c :: (cs ++ char '\n' :: b)) = none := by
      rw [← List.cons_append, Lexeme.read?_append_newLine, hl]
      rfl
    exact .skip hc hl' (ih hb)

/-- Tokens that differ in their places only, by some lines, are the tokens further down. -/
theorem map_down_eq {lines : Int} {ts us : List PlacedToken}
    (h : List.Forall₂ (MovedBy fun p q => q = p.down lines) ts us) :
    ts.map (·.down lines) = us := by
  induction h with
  | nil => rfl
  | @cons t u ts us htu _ ih =>
    obtain ⟨htoken, hflag, hplace⟩ := htu
    rw [List.map_cons, ih]
    obtain ⟨token, invisible, line, column⟩ := t
    obtain ⟨token', invisible', line', column'⟩ := u
    cases htoken
    cases hflag
    cases hplace
    rfl

/-- Some lines further down a text has the same tokens, as much further down. -/
theorem Scans.down {m e : Mode} {p : Place} {t : Text} {ts : List PlacedToken}
    (h : Scans m p t ts e) (lines : Int) :
    Scans m (p.down lines) t (ts.map (·.down lines)) e := by
  have hstep : ∀ (p q : Place) (c : CodePoint),
      q = p.down lines → q.after c = (p.after c).down lines :=
    fun p q c hpq => by rw [hpq, Place.after_down]
  obtain ⟨us, hus, hmoved⟩ := h.move hstep rfl
  rwa [map_down_eq hmoved]

/-- The tokens of a text, a line break and another text: those of the first, the line break, and
those of the second further down. -/
theorem Scans.ofText_append_newLine {a : Text} {e : Mode}
    (ha : Scans .start .start a (ofText a) e) (b : Text) :
    ofText (a ++ char '\n' :: b) =
      ofText a ++ placed (.ofKind .newLine) e (Place.start.afterText a) ::
        (ofText b).map (·.down (a.count (char '\n') + 1)) := by
  obtain ⟨e', hb⟩ := exists_scans_ofText b
  -- where the second text starts is where it starts by itself, further down
  have hplace : (Place.start.afterText a).after '\n' =
      Place.start.down (a.count (char '\n') + 1) := by
    rw [Place.afterText_newLine, Place.down, Int.add_assoc]
    rfl
  have hb' := hb.down (a.count (char '\n') + 1)
  rw [← hplace] at hb'
  exact (ha.append_newLine hb').ofText_eq

/-- The tokens behind a line break are those of the text there, further down. -/
theorem ofText_append_newLine (a b : Text) :
    ∃ newLine : PlacedToken, newLine.kind = .newLine ∧
      ofText (a ++ char '\n' :: b) =
        ofText a ++ newLine :: (ofText b).map (·.down (a.count (char '\n') + 1)) := by
  obtain ⟨e, ha⟩ := exists_scans_ofText a
  exact ⟨_, rfl, ha.ofText_append_newLine b⟩

/-! ## Within a line -/

/-- The tokens of a text without line breaks are no line breaks, hold none, and stand on the line
where the text starts. -/
theorem Scans.within_line {m e : Mode} {p : Place} {t : Text} {ts : List PlacedToken}
    (h : Scans m p t ts e) : char '\n' ∉ t → ∀ u ∈ ts, u.WithinLine ∧ u.line = p.line := by
  induction h with
  | nil => simp
  | @blank m e p c cs ts _ _ ih =>
    intro ht u hu
    rw [List.mem_cons, not_or] at ht
    obtain ⟨hwithin, hline⟩ := ih ht.2 u hu
    exact ⟨hwithin, by rw [hline, Place.after, if_neg (Ne.symm ht.1)]⟩
  | newLine =>
    -- there is no line break in the text
    simp
  | @hide m e p cs ts _ _ ih =>
    intro ht u hu
    rw [List.mem_cons, not_or] at ht
    exact ih ht.2 u hu
  | @token m e p c cs l ts hc hl _ ih =>
    intro ht u hu
    obtain ⟨happ, -⟩ := Lexeme.read?_eq_some hl
    rw [happ, List.mem_append, not_or] at ht
    rcases List.mem_cons.1 hu with rfl | hu
    · exact ⟨Lexeme.read?_withinLine hl, rfl⟩
    · obtain ⟨hwithin, hline⟩ := ih ht.2 u hu
      exact ⟨hwithin, by rw [hline, Place.afterText_eq_of_not_mem ht.1]⟩
  | @skip m e p c cs ts _ _ _ ih =>
    intro ht u hu
    rw [List.mem_cons, not_or] at ht
    obtain ⟨hwithin, hline⟩ := ih ht.2 u hu
    exact ⟨hwithin, by rw [hline, Place.after, if_neg (Ne.symm ht.1)]⟩

/-- No token but a line break holds a line break. -/
theorem Scans.eq_newLine_or_withinLine {m e : Mode} {p : Place} {t : Text}
    {ts : List PlacedToken} (h : Scans m p t ts e) :
    ∀ u ∈ ts, u.kind = .newLine ∨ u.WithinLine := by
  induction h with
  | nil => simp
  | blank _ _ ih | hide _ _ ih | skip _ _ _ ih => exact ih
  | newLine _ ih =>
    intro u hu
    rcases List.mem_cons.1 hu with rfl | hu
    · exact Or.inl rfl
    · exact ih u hu
  | token _ hl _ ih =>
    intro u hu
    rcases List.mem_cons.1 hu with rfl | hu
    · exact Or.inr (Lexeme.read?_withinLine hl)
    · exact ih u hu

/-- The bare words of a text hold no line break. -/
theorem withinLine_of_isWord {t : Text} {u : PlacedToken} (hu : u ∈ ofText t)
    (hword : u.isWord = true) : u.WithinLine := by
  obtain ⟨e, h⟩ := exists_scans_ofText t
  rcases h.eq_newLine_or_withinLine u hu with hk | hwithin
  · rw [PlacedToken.isWord, hk] at hword
    cases hword
  · exact hwithin

/-- The tokens of a line by itself. -/
theorem ofText_within_line {t : Text} (ht : char '\n' ∉ t) :
    ∀ u ∈ ofText t, u.WithinLine ∧ u.line = 1 := by
  obtain ⟨e, h⟩ := exists_scans_ofText t
  exact h.within_line ht

end Token

end BatchScript
