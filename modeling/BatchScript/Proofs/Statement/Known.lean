import BatchScript.Proofs.Statement.Grammar
import BatchScript.Proofs.Token.Order

/-!
# Known kinds

The name of a kind tells the kind when the library knows it; a kind from outside may bear the name
of a known one. A text makes tokens of known kinds only, so a statement that keeps a token of a text
keeps one of a known kind.

> `Token.Kind.ofName_name`: the name of a known kind finds that kind;
> `Script.known_of_ofText`: the statements of a text hold tokens of known kinds only.
-/

namespace BatchScript

/-- The name of a known kind finds that kind. -/
theorem Token.Kind.ofName_name {k : Token.Kind} (h : k ∈ known) : ofName k.name = k := by
  have hall : ∀ k ∈ known, ofName k.name = k := by decide
  exact hall k h

/-- The tokens of a text are of known kinds. -/
theorem Token.known_of_mem_ofText {source : Text} {t : PlacedToken} (h : t ∈ Token.ofText source) :
    t.kind ∈ Token.Kind.known := by
  obtain ⟨before, after, hsplit⟩ := List.append_of_mem h
  exact (Token.admits_ofText hsplit).known

/-- Whether the token that a statement may keep is of a known kind. -/
def Statement.Known (s : Statement) : Prop :=
  ∀ t, s = .unknown t → t.kind ∈ Token.Kind.known

/-- The statements of a text hold tokens of known kinds only. -/
theorem Script.known_of_ofText {source : Text} {ss : List Statement} (h : ofText source = .ok ss) :
    ∀ s ∈ ss, s.Known := by
  rintro s hs t rfl
  obtain ⟨taken, hmade, hmem⟩ := (read_eq_ok_iff.1 h).exists_tokens hs
  cases hmade with
  | unknown => exact Token.known_of_mem_ofText (hmem t List.mem_cons_self)

end BatchScript
