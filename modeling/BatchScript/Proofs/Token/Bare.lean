import BatchScript.Proofs.Script.Alike
import BatchScript.Proofs.Token.Scans

/-!
# Tokens without their places

What a text is read as does not depend on where its tokens stand. `bare m t` are the tokens of the
text `t` in the mode `m` with their places left out, so that the steps of a scanner become equations
with no place in them, and a text that is written back can be scanned piece by piece.

> `bare_token`, `bare_blank`, `bare_hide`: one step of the scanner;
> `exists_of_bare_madeOf`, `exists_madeOf_of_ofText`: a text is read as its bare tokens are.
-/

namespace BatchScript

/-- The token without its place. -/
def PlacedToken.unplaced (t : PlacedToken) : PlacedToken :=
  { t with line := 0, column := 0 }

namespace Token

/-- A token without a place, with the flag of the mode in which it was read. -/
def bareToken (t : Token) (m : Mode) : PlacedToken :=
  ⟨t, m.invisible, 0, 0⟩

/-- The tokens of a text without their places. -/
def bare (m : Mode) (t : Text) : List PlacedToken :=
  (Scanner.mk m .start t).drain.1.map (·.unplaced)

theorem unplaced_placed (t : Token) (m : Mode) (p : Place) :
    (placed t m p).unplaced = bareToken t m := rfl

/-- Tokens that differ in their places only are the same without them. -/
theorem map_unplaced_eq {R : Place → Place → Prop} {ts us : List PlacedToken}
    (h : List.Forall₂ (MovedBy R) ts us) : ts.map (·.unplaced) = us.map (·.unplaced) := by
  induction h with
  | nil => rfl
  | @cons t u ts us htu _ ih =>
    rw [List.map_cons, List.map_cons, ih, PlacedToken.unplaced, PlacedToken.unplaced, htu.token,
      htu.invisible]

/-- From any place the tokens of a text are the same without their places. -/
theorem Scans.map_unplaced {m e : Mode} {p : Place} {t : Text} {ts : List PlacedToken}
    (h : Scans m p t ts e) : ts.map (·.unplaced) = bare m t := by
  obtain ⟨us, hus, hmoved⟩ := h.move (R := fun _ _ => True) (fun _ _ _ _ => trivial) trivial
  rw [map_unplaced_eq hmoved, bare, hus.drain_eq]

/-! ## The steps of a scanner -/

theorem bare_nil (m : Mode) : bare m [] = [] :=
  (Scans.nil (m := m) (p := .start)).map_unplaced.symm

theorem bare_blank {c : CodePoint} (hc : Text.isBlank c = true) (m : Mode) (cs : Text) :
    bare m (c :: cs) = bare m cs := by
  obtain ⟨ts, e, h⟩ := exists_scans m (Place.start.after c) cs
  rw [← (Scans.blank hc h).map_unplaced, h.map_unplaced]

theorem bare_space (m : Mode) (cs : Text) : bare m (char ' ' :: cs) = bare m cs :=
  bare_blank (by decide) m cs

/-- An `@` where a statement may start hides what follows. -/
theorem bare_hide {m : Mode} (hm : m.atHead = true) (cs : Text) :
    bare m (char '@' :: cs) = bare { m with invisible := true } cs := by
  obtain ⟨ts, e, h⟩ := exists_scans { m with invisible := true } (Place.start.after '@') cs
  rw [← (Scans.hide hm h).map_unplaced, h.map_unplaced]

/-- A lexeme gives its token, and the scan goes on behind it. -/
theorem bare_token {m : Mode} {c : CodePoint} {cs : Text} {l : Lexeme} (hc : StartsLexeme m c)
    (hl : Lexeme.read? m (c :: cs) = some l) :
    bare m (c :: cs) = bareToken l.token m :: bare l.mode l.rest := by
  obtain ⟨ts, e, h⟩ := exists_scans l.mode (Place.start.afterText l.raw) l.rest
  rw [← (Scans.token hc hl h).map_unplaced, List.map_cons, h.map_unplaced, unplaced_placed]

end Token

/-! ## Reading bare tokens -/

/-- No reading can tell a token from the same one without its place. -/
theorem PlacedToken.readAlike_unplaced (t u : PlacedToken) (h : u = t.unplaced) :
    t.ReadAlike u := by
  rw [h]
  exact ⟨rfl, fun _ => rfl, fun _ => rfl⟩

/-- What no reading can tell apart is so both ways. -/
theorem PlacedToken.ReadAlike.symm {t u : PlacedToken} (h : t.ReadAlike u) : u.ReadAlike t :=
  ⟨h.kind.symm, fun hs => (h.value (h.kind ▸ hs)).symm, fun hf => (h.flag (h.kind ▸ hf)).symm⟩

namespace Script

/-- What a text is read as, its bare tokens make up. -/
theorem exists_madeOf_of_ofText {t : Text} {ss : List Statement} (h : ofText t = .ok ss) :
    ∃ ss', MadeOf ss' (Token.bare .start t) ∧
      List.Forall₂ (Statement.Alike fun t u => u = t.unplaced) ss ss' := by
  have hmap := forall₂_map_self (·.unplaced) (Token.ofText t)
  have hagree := read_alike PlacedToken.readAlike_unplaced _ _ hmap
  obtain ⟨ss', hss, hread⟩ := hagree.exists_of_ok h
  exact ⟨ss', read_eq_ok_iff.1 hread, hss⟩

/-- What the bare tokens of a text make up, the text is read as. -/
theorem exists_of_bare_madeOf {t : Text} {ss : List Statement}
    (h : MadeOf ss (Token.bare .start t)) :
    ∃ ss', ofText t = .ok ss' ∧
      List.Forall₂ (Statement.Alike fun t u => t = u.unplaced) ss ss' := by
  have halike : ∀ t u : PlacedToken, t = u.unplaced → t.ReadAlike u :=
    fun t u h => (PlacedToken.readAlike_unplaced u t h).symm
  have hmap := forall₂_map_self (·.unplaced) (Token.ofText t)
  have hagree := read_alike halike _ _ hmap.flip
  obtain ⟨ss', hss, hread⟩ := hagree.exists_of_ok (read_eq_ok_iff.2 h)
  exact ⟨ss', hread, hss⟩

end Script

end BatchScript
