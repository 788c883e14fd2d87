import BatchScript.Proofs.Token.Hiding

/-!
# Blanks in front of a token

Blanks in front of a token move it, and the tokens behind it on its line, to the right, and change
nothing else. The token in front of them may touch the place where they are put: it is then followed
by something on its line, so it leaves no quotes open and ends with no caret
(`Lexeme.isClosed_raw`), and a blank ends it as the token behind it did.

> `Scans.indented`: where a token stands, and what blanks put there do;
> `blanks_before_token`: the same of all tokens of a text.
-/

namespace BatchScript

namespace Place

/-- The place some columns to the right, if it is on the given line. -/
def indented (p : Place) (line : Int) (columns : Nat) : Place :=
  if p.line = line then ⟨p.line, p.column + columns⟩ else p

/-- Places that are on a line or below it stay so, and the columns go with them. -/
theorem after_indented {p : Place} {line : Int} (h : line ≤ p.line) (columns : Nat)
    (c : CodePoint) :
    line ≤ (p.after c).line ∧
      (p.indented line columns).after c = (p.after c).indented line columns := by
  unfold indented after
  by_cases hc : c = '\n'
  · have hbelow : p.line + 1 ≠ line := by omega
    simp only [if_pos hc, if_neg hbelow]
    refine ⟨by omega, ?_⟩
    split <;> rfl
  · simp only [if_neg hc]
    refine ⟨h, ?_⟩
    split
    · simp only [mk.injEq, true_and]
      omega
    · rfl

/-- The place behind a text is on a line further down, or to the right by the length of the text. -/
theorem afterText_ahead (t : Text) : ∀ p : Place, p.line ≤ (p.afterText t).line ∧
    ((p.afterText t).line = p.line → (p.afterText t).column = p.column + t.length) := by
  induction t with
  | nil => exact fun p => ⟨Int.le_refl _, fun _ => by simp [afterText]⟩
  | cons c cs ih =>
    intro p
    obtain ⟨hline, hcolumn⟩ := ih (p.after c)
    have hafter : (p.after c).line = p.line + 1 ∨
        ((p.after c).line = p.line ∧ (p.after c).column = p.column + 1) := by
      unfold after
      split
      · exact Or.inl rfl
      · exact Or.inr ⟨rfl, rfl⟩
    show p.line ≤ ((p.after c).afterText cs).line ∧ (((p.after c).afterText cs).line = p.line →
      ((p.after c).afterText cs).column = p.column + (c :: cs).length)
    rw [List.length_cons]
    refine ⟨by omega, fun hsame => ?_⟩
    have hsame' := hcolumn (by omega)
    omega

theorem afterText_ne {t : Text} (ht : t ≠ []) (p : Place) : p.afterText t ≠ p := by
  intro h
  have hcolumn := (afterText_ahead t p).2 (congrArg Place.line h)
  rw [h] at hcolumn
  have hpos := List.length_pos_iff.2 ht
  omega

/-- A place of a text has one text in front of it. -/
theorem afterText_injective {a b a' b' : Text} {p : Place} (happ : a ++ b = a' ++ b')
    (h : p.afterText a = p.afterText a') : a = a' := by
  rcases List.append_eq_append_iff.1 happ with ⟨x, rfl, -⟩ | ⟨x, rfl, -⟩
  · rw [afterText_append] at h
    by_cases hx : x = []
    · rw [hx, List.append_nil]
    · exact absurd h.symm (afterText_ne hx _)
  · rw [afterText_append] at h
    by_cases hx : x = []
    · rw [hx, List.append_nil]
    · exact absurd h (afterText_ne hx _)

end Place

/-- The place where a token starts. -/
def PlacedToken.start (t : PlacedToken) : Place :=
  ⟨t.line, t.column⟩

/-- The token some columns to the right, if it is on the given line. -/
def PlacedToken.indented (t : PlacedToken) (line : Int) (columns : Nat) : PlacedToken :=
  if t.line = line then { t with column := t.column + columns } else t

namespace Token

/-- A lexeme is found again where blanks are put behind it, close by or further on. -/
theorem Lexeme.read?_raw_blanks {m : Mode} {t a b w : Text} {l : Lexeme} (h : read? m t = some l)
    (hrest : l.rest = a ++ b) (hb : ∀ c, b.head? = some c → c ≠ '\n') (hbne : b ≠ [])
    (hw : ∀ c ∈ w, Text.isBlank c = true) :
    read? m (l.raw ++ (a ++ (w ++ b))) = some { l with rest := a ++ (w ++ b) } := by
  rcases a with _ | ⟨c, cs⟩
  · rcases w with _ | ⟨d, ds⟩
    · exact read?_raw_append h (Or.inr (by rw [hrest]; rfl))
    · -- what followed at once is now behind a blank, which ends the lexeme as well
      obtain ⟨e, es, rfl⟩ := List.exists_cons_of_ne_nil hbne
      have hclosed := isClosed_raw h hrest (hb e rfl)
      have hends : Word.Ends false l.raw d := Or.inr ⟨hw d List.mem_cons_self, hclosed⟩
      have halone := read?_raw_append h (u := []) (Or.inl rfl)
      rw [List.append_nil] at halone
      rw [List.nil_append, List.cons_append, read?_append m hends, halone]
      rfl
  · exact read?_raw_append h (Or.inr (by rw [hrest]; rfl))

/-- Blanks at the front of a text are skipped. -/
theorem Scans.blanks {m e : Mode} {t : Text} {ts : List PlacedToken} {w : Text} :
    ∀ {p : Place}, (∀ c ∈ w, Text.isBlank c = true) → Scans m (p.afterText w) t ts e →
      Scans m p (w ++ t) ts e := by
  induction w with
  | nil => exact fun _ h => h
  | cons c cs ih =>
    intro p hw h
    exact .blank (hw c List.mem_cons_self)
      (ih (fun d hd => hw d (List.mem_cons_of_mem c hd)) h)

/-- Tokens that differ in their places only, by columns on a line, are the tokens to the right. -/
theorem map_indented_eq {line : Int} {columns : Nat} {ts us : List PlacedToken}
    (h : List.Forall₂ (MovedBy fun p q => line ≤ p.line ∧ q = p.indented line columns) ts us) :
    ts.map (·.indented line columns) = us := by
  induction h with
  | nil => rfl
  | @cons t u ts us htu _ ih =>
    obtain ⟨htoken, hflag, -, hplace⟩ := htu
    rw [List.map_cons, ih]
    obtain ⟨token, invisible, line', column'⟩ := t
    obtain ⟨token', invisible', line'', column''⟩ := u
    cases htoken
    cases hflag
    congr 1
    -- the place moves to the right on the line, and stays below it
    unfold Place.indented at hplace
    unfold PlacedToken.indented
    split at hplace
    · next hline =>
      cases hplace
      rw [if_pos hline]
      rfl
    · next hline =>
      cases hplace
      rw [if_neg hline]

/-- From some columns to the right a text has the same tokens, those of the first line as much to
the right. -/
theorem Scans.indent {m e : Mode} {p : Place} {t : Text} {ts : List PlacedToken}
    (h : Scans m p t ts e) (columns : Nat) :
    Scans m ⟨p.line, p.column + columns⟩ t (ts.map (·.indented p.line columns)) e := by
  have hstep : ∀ (q q' : Place) (c : CodePoint), p.line ≤ q.line ∧ q' = q.indented p.line columns →
      p.line ≤ (q.after c).line ∧ q'.after c = (q.after c).indented p.line columns := by
    rintro q q' c ⟨hline, rfl⟩
    exact Place.after_indented hline columns c
  have hstart : p.line ≤ p.line ∧
      (⟨p.line, p.column + columns⟩ : Place) = p.indented p.line columns :=
    ⟨Int.le_refl _, by rw [Place.indented, if_pos rfl]⟩
  obtain ⟨us, hus, hmoved⟩ := h.move hstep hstart
  rwa [map_indented_eq hmoved]

/-- A text in front of a token, and what blanks put behind it do to the tokens. -/
structure Indents (m e : Mode) (p : Place) (before : List PlacedToken) (t : PlacedToken)
    (after : List PlacedToken) (a b : Text) : Prop where
  start : p.afterText a = t.start
  goesOn : b ≠ []
  sameLine : ∀ c, b.head? = some c → c ≠ '\n'
  blanks : ∀ w : Text, (∀ c ∈ w, Text.isBlank c = true) →
    Scans m p (a ++ (w ++ b)) (before ++ (t :: after).map (·.indented t.line w.length)) e

/-- Every token but a line break has a text in front of it, and blanks put behind that text indent
the token and what follows it on its line. -/
theorem Scans.indented {m e : Mode} {p : Place} {source : Text} {ts : List PlacedToken}
    (h : Scans m p source ts e) : ∀ {before after : List PlacedToken} {t : PlacedToken},
      ts = before ++ t :: after → t.kind ≠ .newLine →
        ∃ a b, source = a ++ b ∧ Indents m e p before t after a b := by
  induction h with
  | nil =>
    intro before after t hts
    exact absurd hts.symm (by simp)
  | @blank m e p c cs ts hc _ ih =>
    intro before after t hts ht
    obtain ⟨a, b, rfl, hind⟩ := ih hts ht
    exact ⟨c :: a, b, rfl, hind.start, hind.goesOn, hind.sameLine,
      fun w hw => .blank hc (hind.blanks w hw)⟩
  | @newLine m e p cs ts _ ih =>
    intro before after t hts ht
    cases before with
    | nil =>
      obtain ⟨rfl, -⟩ := List.cons.inj hts
      exact absurd rfl ht
    | cons u before =>
      obtain ⟨rfl, hrest⟩ := List.cons.inj hts
      obtain ⟨a, b, rfl, hind⟩ := ih hrest ht
      exact ⟨char '\n' :: a, b, rfl, hind.start, hind.goesOn, hind.sameLine,
        fun w hw => .newLine (hind.blanks w hw)⟩
  | @hide m e p cs ts hm _ ih =>
    intro before after t hts ht
    obtain ⟨a, b, rfl, hind⟩ := ih hts ht
    exact ⟨char '@' :: a, b, rfl, hind.start, hind.goesOn, hind.sameLine,
      fun w hw => .hide hm (hind.blanks w hw)⟩
  | @token m e p c cs l ts hc hl hscan ih =>
    intro before after t hts ht
    cases before with
    | nil =>
      obtain ⟨rfl, rfl⟩ := List.cons.inj hts
      refine ⟨[], c :: cs, rfl, rfl, List.cons_ne_nil c cs, ?_, fun w hw => ?_⟩
      · rintro d hd
        cases hd
        exact hc.2.1
      · have hplace : p.afterText w = ⟨p.line, p.column + w.length⟩ := by
          refine Place.afterText_eq_of_not_mem fun hmem => ?_
          have hblank := hw _ hmem
          cases hblank
        have hindent := (Scans.token hc hl hscan).indent w.length
        rw [← hplace] at hindent
        exact Scans.blanks (w := w) hw hindent
    | cons u before =>
      obtain ⟨rfl, hrest⟩ := List.cons.inj hts
      obtain ⟨a, b, hab, hind⟩ := ih hrest ht
      obtain ⟨happ, hne⟩ := Lexeme.read?_eq_some hl
      refine ⟨l.raw ++ a, b, by rw [happ, hab, List.append_assoc], ?_, hind.goesOn, hind.sameLine,
        fun w hw => ?_⟩
      · rw [Place.afterText_append]
        exact hind.start
      · have hl' := Lexeme.read?_raw_blanks hl hab hind.sameLine hind.goesOn hw
        obtain ⟨d, ds, hraw⟩ := List.exists_cons_of_ne_nil hne
        -- the lexeme starts as it did
        obtain ⟨rfl, -⟩ : c = d ∧ cs = ds ++ l.rest := by
          rw [hraw, List.cons_append] at happ
          exact List.cons.inj happ
        have htext : l.raw ++ (a ++ (w ++ b)) = c :: (ds ++ (a ++ (w ++ b))) := by
          rw [hraw]
          rfl
        rw [htext] at hl'
        rw [List.append_assoc, htext]
        exact .token (l := { l with rest := a ++ (w ++ b) }) hc hl' (hind.blanks w hw)
  | @skip m e p c cs ts hc hl hscan ih =>
    intro before after t hts ht
    obtain ⟨a, b, hab, hind⟩ := ih hts ht
    obtain ⟨rfl, hnext⟩ := Lexeme.eq_caret_of_read?_eq_none hc.1 hc.2.1 hl
    -- the line ends behind the caret, so the token is further down
    obtain ⟨d, ds, rfl⟩ : ∃ d ds, a = d :: ds := by
      cases a with
      | cons d ds => exact ⟨d, ds, rfl⟩
      | nil =>
        rw [hab, List.nil_append] at hnext
        rcases hnext with hnext | hnext
        · exact absurd (List.head?_eq_none_iff.1 hnext) hind.goesOn
        · exact absurd rfl (hind.sameLine _ hnext)
    refine ⟨char '^' :: d :: ds, b, by rw [hab]; rfl, hind.start, hind.goesOn, hind.sameLine,
      fun w hw => ?_⟩
    exact .skip hc (Lexeme.read?_caret_eq_none hl (Or.inr (by rw [hab]; rfl))) (hind.blanks w hw)

/-- **Blanks in front of a token change no token.** A token that is no line break stands behind a
part of the text that ends at its place. Blanks put there give the same tokens with the same flags
on the same lines. The tokens in front are as they were, and the token and those that follow it on
its line are as many columns to the right as there are blanks. -/
theorem blanks_before_token {source : Text} {before after : List PlacedToken} {t : PlacedToken}
    (h : ofText source = before ++ t :: after) (ht : t.kind ≠ .newLine) :
    (∃ a b, source = a ++ b ∧ Place.start.afterText a = t.start) ∧
      ∀ a b w : Text, source = a ++ b → Place.start.afterText a = t.start →
        (∀ c ∈ w, Text.isBlank c = true) →
          ofText (a ++ w ++ b) = before ++ (t :: after).map (·.indented t.line w.length) := by
  obtain ⟨e, hscan⟩ := exists_scans_ofText source
  obtain ⟨a, b, rfl, hind⟩ := hscan.indented h ht
  refine ⟨⟨a, b, rfl, hind.start⟩, fun a' b' w happ hstart hw => ?_⟩
  -- there is only one part of the text that ends at the place
  obtain rfl := Place.afterText_injective happ (hind.start.trans hstart.symm)
  obtain rfl := List.append_cancel_left happ
  rw [List.append_assoc]
  exact (hind.blanks w hw).ofText_eq

/-- A redirection and a handle that touch: behind blanks the handle is still one, and the line break
moves with it. -/
theorem blanks_before_token_handle :
    ofText "a>\t &1&b\nc".text =
      [⟨⟨.word, "a".text⟩, false, 1, 1⟩, ⟨⟨.redirect .overwrite, ">".text⟩, false, 1, 2⟩,
        ⟨⟨.word, "&1".text⟩, false, 1, 5⟩, ⟨⟨.andAlways, "&".text⟩, false, 1, 7⟩,
        ⟨⟨.word, "b".text⟩, false, 1, 8⟩, ⟨⟨.newLine, "\n".text⟩, false, 1, 9⟩,
        ⟨⟨.word, "c".text⟩, false, 2, 1⟩] := by
  have htokens : ofText "a>&1&b\nc".text =
      [⟨⟨.word, "a".text⟩, false, 1, 1⟩, ⟨⟨.redirect .overwrite, ">".text⟩, false, 1, 2⟩] ++
        ⟨⟨.word, "&1".text⟩, false, 1, 3⟩ ::
        [⟨⟨.andAlways, "&".text⟩, false, 1, 5⟩, ⟨⟨.word, "b".text⟩, false, 1, 6⟩,
          ⟨⟨.newLine, "\n".text⟩, false, 1, 7⟩, ⟨⟨.word, "c".text⟩, false, 2, 1⟩] := by
    decide +kernel
  have hblanks : ∀ c ∈ "\t ".text, Text.isBlank c = true := List.all_eq_true.1 (by decide)
  exact (blanks_before_token htokens (by decide)).2 "a>".text "&1&b\nc".text "\t ".text rfl rfl
    hblanks

end Token

end BatchScript
