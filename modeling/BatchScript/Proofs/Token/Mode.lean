import BatchScript.Proofs.Token.Lexeme

/-!
# What a token does to the mode

The mode behind a lexeme is given by the mode before it and the kind of its token, by one rule for
all kinds (`behind`). The rule needs an invariant of all modes that a scanner reaches: where a
statement may start no comment has begun, and no redirection stands just before (`Sound`).

> `read?_mode`: a lexeme leaves the mode that its kind leaves;
> `sound_behind`: a token leaves a sound mode.
-/

namespace BatchScript

namespace Token

namespace Mode

/-- The mode behind a token of the given kind. -/
def behind (m : Mode) (kind : Kind) : Mode :=
  ⟨kind.isChain && !m.inComment, m.invisible, m.inComment || kind == .rem,
    kind.redirection?.isSome⟩

/-- Where a statement may start no comment has begun, and the last token is no redirection. -/
structure Sound (m : Mode) : Prop where
  noComment : m.atHead = true → m.inComment = false
  noRedirection : m.atHead = true → m.afterRedirection = false

theorem sound_start : Mode.start.Sound :=
  ⟨fun _ => rfl, fun _ => rfl⟩

/-- A mode stays sound when an `@` is read. -/
theorem Sound.hide {m : Mode} (h : m.Sound) (invisible : Bool) :
    Sound { m with invisible := invisible } :=
  ⟨h.noComment, h.noRedirection⟩

/-- Behind a redirection no statement may start. -/
theorem Sound.atHead_eq_false {m : Mode} (h : m.Sound) (hr : m.afterRedirection = true) :
    m.atHead = false := by
  cases hhead : m.atHead with
  | false => rfl
  | true =>
    rw [h.noRedirection hhead] at hr
    cases hr

/-- A token leaves a sound mode. -/
theorem sound_behind (m : Mode) (kind : Kind) : (m.behind kind).Sound := by
  have hchain : kind.isChain = true → (kind == .rem) = false ∧ kind.redirection? = none := by
    intro h
    cases kind with
    | andIfSuccess | andAlways | pipe => exact ⟨by decide, rfl⟩
    | _ => cases h
  refine ⟨fun h => ?_, fun h => ?_⟩
  · rw [behind, Bool.and_eq_true, Bool.not_eq_true'] at h
    rw [behind, h.2, (hchain h.1).1]
    rfl
  · rw [behind, Bool.and_eq_true] at h
    rw [behind, (hchain h.1).2]
    rfl

/-- Where no statement may start, behind no redirection, a word leaves the mode as it is. -/
theorem behind_word {m : Mode} (hm : m.atHead = false) (hr : m.afterRedirection = false) :
    m.behind .word = m := by
  obtain ⟨atHead, invisible, inComment, afterRedirection⟩ := m
  cases hm
  cases hr
  simp [behind, Kind.isChain, Kind.redirection?]

/-- So does a redirection with its target. -/
theorem behind_clause {m : Mode} (hm : m.atHead = false) (hr : m.afterRedirection = false)
    (kind : Redirection.Kind) : (m.behind (.redirect kind)).behind .word = m := by
  have hrem : (Kind.redirect kind == .rem) = false := by cases kind <;> decide
  obtain ⟨atHead, invisible, inComment, afterRedirection⟩ := m
  cases hm
  cases hr
  simp [behind, Kind.isChain, Kind.redirection?, hrem]

end Mode

/-- A keyword chains nothing and redirects nothing. -/
theorem isChain_keyword {kind : Kind} (hk : kind ∈ Kind.keywords) :
    kind.isChain = false ∧ kind.redirection? = none := by
  revert kind
  decide

namespace Lexeme

/-- A word leaves the mode behind its kind. -/
theorem ofWord_mode (m : Mode) (w : Word) :
    (ofWord m w).mode = m.behind (ofWord m w).token.kind := by
  have hplain : (ofWord m w).token.kind.isChain = false ∧
      (ofWord m w).token.kind.redirection? = none := by
    rcases ofWord_kind m w with hk | ⟨-, hk⟩
    · rw [hk]
      exact ⟨rfl, rfl⟩
    · exact isChain_keyword (List.mem_of_find?_eq_some hk)
  rw [Mode.behind, hplain.1, hplain.2]
  rfl

theorem ofOperator_mode (m : Mode) {kind : Kind} (rest : Text) (hk : kind ∈ Kind.operators) :
    (ofOperator m kind rest).mode = m.behind kind := by
  have hrem : ∀ k ∈ Kind.operators, (k == .rem) = false := by decide
  rw [Mode.behind, hrem kind hk, Bool.or_false]
  rfl

/-- A mark leaves the mode behind its kind. -/
theorem mark?_mode {m : Mode} {t : Text} {l : Lexeme} (hr : m.afterRedirection = false)
    (h : mark? m t = some l) : l.mode = m.behind l.token.kind := by
  unfold mark? at h
  split at h
  · cases h
    simp [Mode.behind, Kind.isChain, Kind.redirection?, hr]
  · cases h
    simp [Mode.behind, Kind.isChain, Kind.redirection?, hr]
  · cases h

theorem handle?_mode {m : Mode} {t : Text} {l : Lexeme} (hm : m.atHead = false)
    (h : handle? m t = some l) : l.mode = m.behind l.token.kind := by
  unfold handle? at h
  split at h
  · split at h
    · cases h
      simp [Mode.behind, Kind.isChain, Kind.redirection?, hm]
    · cases h
  · cases h

/-- A lexeme leaves the mode that its kind leaves. -/
theorem read?_mode {m : Mode} {t : Text} {l : Lexeme} (hm : m.Sound) (h : read? m t = some l) :
    l.mode = m.behind l.token.kind := by
  rcases read?_cases h with ⟨hhead, h⟩ | ⟨-, ⟨hr, h⟩ | ⟨kind, rest, hop, rfl⟩ | ⟨-, rfl⟩⟩
  · exact mark?_mode (hm.noRedirection hhead) h
  · exact handle?_mode (hm.atHead_eq_false hr) h
  · exact ofOperator_mode m rest (operator?_eq_some_iff.1 hop).1
  · exact ofWord_mode m _

end Lexeme

end Token

end BatchScript
