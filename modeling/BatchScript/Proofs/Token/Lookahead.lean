import BatchScript.Proofs.Token.Line
import BatchScript.Proofs.Token.Spelt

/-!
# How far a lexeme looks ahead

A lexeme is found from its own characters and from the one behind it, if there is one. So it is
found again where the text goes on with the same character, or ends there. A part of a word up to
the end of the text is a word as well.

> `read?_raw_append`: a lexeme and another rest that starts alike;
> `read?_front`: the front of a lexeme, up to an `@` inside of it.
-/

namespace BatchScript

/-- Whether a text starts like another one: it is empty, or the first characters are the same. -/
def Text.StartsLike (t u : Text) : Prop :=
  t.head? = none ∨ t.head? = u.head?

/-- A text starts like every text that it begins. -/
theorem Text.startsLike_append (t u : Text) : t.StartsLike (t ++ u) := by
  cases t with
  | nil => exact Or.inl rfl
  | cons c cs => exact Or.inr rfl

/-- A text that starts like one with a first character is empty or has that character in front. -/
theorem Text.StartsLike.cases {t u : Text} {c : CodePoint} (h : t.StartsLike (c :: u)) :
    t = [] ∨ ∃ cs, t = c :: cs := by
  cases t with
  | nil => exact Or.inl rfl
  | cons d ds =>
    rcases h with h | h
    · cases h
    · cases h
      exact Or.inr ⟨ds, rfl⟩

theorem Text.StartsLike.eq_nil {t : Text} (h : t.StartsLike []) : t = [] := by
  rcases h with h | h <;> exact List.head?_eq_none_iff.1 h

namespace Token

namespace Word

/-- A word is read again where the text goes on alike. -/
theorem read_raw_append (quoted : Bool) (t : Text) {u : Text}
    (h : u.StartsLike (read quoted t).rest) :
    read quoted ((read quoted t).raw ++ u) = { read quoted t with rest := u } := by
  fun_induction read quoted t with
  | case1 quoted =>
    rw [h.eq_nil]
    exact read_nil quoted
  | case2 quoted cs =>
    -- the line break is still there, or nothing is
    rcases h.cases with rfl | ⟨us, rfl⟩
    · exact read_nil quoted
    · exact read_newLine quoted us
  | case3 c cs hline ih =>
    rw [push, List.cons_append, read_quoted hline, ih h]
    rfl
  | case4 quoted c cs _ hquoted hend =>
    obtain rfl : quoted = false := by simpa using hquoted
    rcases h.cases with rfl | ⟨us, rfl⟩
    · exact read_nil false
    · exact read_end hend us
  | case5 quoted hquoted =>
    -- a caret at the end, which protects nothing
    obtain rfl : quoted = false := by simpa using hquoted
    rw [h.eq_nil]
    exact read_caret_nil
  | case6 quoted hquoted ds =>
    obtain rfl : quoted = false := by simpa using hquoted
    rcases h.cases with rfl | ⟨us, rfl⟩
    · exact read_caret_nil
    · exact read_caret_newLine us
  | case7 quoted hquoted d ds hline _ _ ih =>
    obtain rfl : quoted = false := by simpa using hquoted
    rw [pushEscaped, List.cons_append, List.cons_append, read_caret hline, ih h]
    rfl
  | case8 quoted c cs hline hquoted hend hcaret ih =>
    obtain rfl : quoted = false := by simpa using hquoted
    have hplain : isPlain c = true := by simp_all [isPlain]
    rw [push, List.cons_append, read_plain hplain, ih h]
    rfl

/-- The front of what a word is written with is a word up to its end. -/
theorem read_front {quoted : Bool} {t x y : Text} (h : (read quoted t).raw = x ++ y) :
    (read quoted x).raw = x ∧ (read quoted x).rest = [] := by
  suffices hraw : (read quoted x).raw = x by
    have happ := raw_append_rest quoted x
    rw [hraw] at happ
    exact ⟨hraw, List.append_right_eq_self.1 happ⟩
  fun_induction read quoted t generalizing x with
  | case3 c cs hline ih =>
    cases x with
    | nil => rw [read_nil]
    | cons d ds =>
      obtain ⟨rfl, hds⟩ := List.cons.inj h
      rw [read_quoted hline, push, ih hds]
  | case7 quoted hquoted d ds hline _ _ ih =>
    obtain rfl : quoted = false := by simpa using hquoted
    rcases x with _ | ⟨c, _ | ⟨d', ds'⟩⟩
    · rw [read_nil]
    · obtain ⟨rfl, -⟩ := List.cons.inj h
      rw [read_caret_nil]
    · obtain ⟨rfl, hrest⟩ := List.cons.inj h
      obtain ⟨rfl, hds⟩ := List.cons.inj hrest
      rw [read_caret hline, pushEscaped, ih hds]
  | case8 quoted c cs hline hquoted hend hcaret ih =>
    obtain rfl : quoted = false := by simpa using hquoted
    have hplain : isPlain c = true := by simp_all [isPlain]
    cases x with
    | nil => rw [read_nil]
    | cons d ds =>
      obtain ⟨rfl, hds⟩ := List.cons.inj h
      rw [read_plain hplain, push, ih hds]
  | case5 quoted hquoted | case6 quoted hquoted =>
    -- a caret with nothing behind it on its line
    obtain rfl : quoted = false := by simpa using hquoted
    cases x with
    | nil => rw [read_nil]
    | cons d ds =>
      obtain ⟨rfl, hds⟩ := List.cons.inj h
      rw [(List.append_eq_nil_iff.1 hds.symm).1, read_caret_nil]
  | _ =>
    rw [(List.append_eq_nil_iff.1 h.symm).1, read_nil]

/-- Only nothing and a caret alone stand for nothing. -/
theorem unescape_eq_nil {t : Text} (h : unescape false t = []) : t = [] ∨ t = [char '^'] := by
  rcases t with _ | ⟨c, cs⟩
  · exact Or.inl rfl
  · by_cases hc : c = '^'
    · subst hc
      cases cs with
      | nil => exact Or.inr rfl
      | cons d ds =>
        rw [unescape_caret] at h
        cases h
    · rw [unescape_own hc] at h
      cases h

end Word

/-! ## The first two characters -/

/-- Whether the first two characters of a text are those of another one, as far as it has them. -/
structure SameFront (t u : Text) : Prop where
  first : t.head? = u.head?
  second : ∀ c, t[1]? = some c → u[1]? = some c

/-- Texts that start alike agree in their first two characters behind something in front. -/
theorem sameFront_append {raw t u : Text} (hraw : raw ≠ []) (h : t.StartsLike u) :
    SameFront (raw ++ t) (raw ++ u) := by
  rcases raw with _ | ⟨c, _ | ⟨c', cs⟩⟩
  · exact absurd rfl hraw
  · refine ⟨rfl, fun d hd => ?_⟩
    rw [List.singleton_append, List.getElem?_cons_succ, ← List.head?_eq_getElem?] at hd ⊢
    rcases h with h | h
    · rw [h] at hd
      cases hd
    · exact h.symm.trans hd
  · exact ⟨rfl, fun _ hd => hd⟩

/-- No operator is in front where neither one of its characters stands there nor `2>`. -/
theorem operator?_eq_none_iff {t : Text} : operator? t = none ↔
    (∀ c, t.head? = some c → isOperatorChar c = false) ∧
      (t.head? = some (char '2') → t[1]? ≠ some (char '>')) := by
  rcases t with _ | ⟨c, cs⟩
  · simp [operator?]
  · rw [List.getElem?_cons_succ, ← List.head?_eq_getElem?]
    constructor
    · intro h
      refine ⟨fun d hd => ?_, fun hc hcs => ?_⟩
      · cases hop : isOperatorChar d with
        | false => rfl
        | true =>
          cases hd
          exact absurd h (operator?_ne_none hop cs)
      · cases hc
        obtain ⟨ds, rfl⟩ := List.head?_eq_some_iff.1 hcs
        cases ds with
        | nil => cases h
        | cons d ds =>
          unfold operator? at h
          split at h <;> simp_all
    · rintro ⟨hc, htwo⟩
      exact operator?_eq_none (hc c rfl) fun h => htwo (by rw [h]; rfl)

/-- Whether an operator starts a text can be told from two characters. -/
theorem operator?_eq_none_of_sameFront {t u : Text} (h : SameFront t u)
    (hu : operator? u = none) : operator? t = none := by
  rw [operator?_eq_none_iff, h.first]
  rw [operator?_eq_none_iff] at hu
  exact ⟨hu.1, fun hc hone => hu.2 hc (h.second '>' hone)⟩

namespace Lexeme

theorem mark?_eq_none_iff {m : Mode} {t : Text} : mark? m t = none ↔ t.head? ≠ some (char ':') := by
  unfold mark?
  split
  · simp
  · simp
  · next hne =>
    refine ⟨fun _ hhead => ?_, fun _ => rfl⟩
    obtain ⟨cs, rfl⟩ := List.head?_eq_some_iff.1 hhead
    exact hne cs rfl

theorem handle?_eq_none_iff {m : Mode} {t : Text} : handle? m t = none ↔
    ∀ d, t.head? = some (char '&') → t[1]? = some d → Text.isDigit d = false := by
  unfold handle?
  split
  · simp
  · next hne =>
    refine ⟨fun _ d hhead hone => ?_, fun _ => rfl⟩
    rcases t with _ | ⟨c, _ | ⟨c', cs⟩⟩
    · cases hhead
    · cases hone
    · cases hhead
      exact absurd rfl (hne c' cs)

/-- Whether a mark starts a text can be told from one character. -/
theorem mark?_eq_none_of_sameFront {m : Mode} {t u : Text} (h : SameFront t u)
    (hu : mark? m u = none) : mark? m t = none := by
  rwa [mark?_eq_none_iff, h.first, ← mark?_eq_none_iff]

/-- Whether a handle starts a text can be told from two characters. -/
theorem handle?_eq_none_of_sameFront {m : Mode} {t u : Text} (h : SameFront t u)
    (hu : handle? m u = none) : handle? m t = none := by
  rw [handle?_eq_none_iff, h.first]
  rw [handle?_eq_none_iff] at hu
  exact fun d hhead hone => hu d hhead (h.second d hone)

/-! ## Lexemes -/

variable {m : Mode} {t u : Text} {l : Lexeme}

/-- A mark is read in front of every text that starts like what followed it. -/
theorem mark?_raw_append (h : mark? m t = some l) (hu : u.StartsLike l.rest) :
    mark? m (l.raw ++ u) = some { l with rest := u } := by
  unfold mark? at h
  split at h
  · cases h
    rfl
  · next cs hne =>
    cases h
    -- a colon behind the mark would have made it a comment
    have hcolon : ∀ ds, u ≠ char ':' :: ds := by
      rintro ds rfl
      rcases hu with hu | hu
      · cases hu
      · obtain ⟨es, hes⟩ := List.head?_eq_some_iff.1 hu.symm
        exact hne es hes
    rw [List.singleton_append, mark?]
    exact hcolon
  · cases h

theorem handle?_raw_append (h : handle? m t = some l) (hu : u.StartsLike l.rest) :
    handle? m (l.raw ++ u) = some { l with rest := u } := by
  unfold handle? at h
  split at h
  · next d cs =>
    split at h
    · next hd =>
      cases h
      have hread := Word.read_raw_append false (d :: cs) hu
      rw [Word.read_plain (isPlain_of_isDigit hd)] at hread ⊢
      simp only [Word.push, List.cons_append] at hread ⊢
      rw [handle?, if_pos hd, hread]
    · cases h
  · cases h

/-- An operator or a word is read in front of every text that starts like what followed it. -/
theorem operatorOrWord?_raw_append (h : operatorOrWord? m t = some l)
    (hu : u.StartsLike l.rest) : operatorOrWord? m (l.raw ++ u) = some { l with rest := u } := by
  unfold operatorOrWord? at h
  split at h
  · next kind rest hop =>
    cases h
    obtain ⟨hkind, -, hrest⟩ := operator?_eq_some_iff.1 hop
    -- the next character makes no longer operator, as it is the same or missing
    have hop' : operator? ((ofOperator m kind rest).raw ++ u) = some (kind, u) := by
      refine operator?_eq_some_iff.2 ⟨hkind, rfl, fun c hc => ?_⟩
      rcases hu with hu | hu
      · rw [hu] at hc
        cases hc
      · exact hrest c (hu.symm.trans hc)
    rw [operatorOrWord?, hop']
    rfl
  · next hop =>
    obtain ⟨happ, hne⟩ := word?_eq_some h
    unfold word? at h
    split at h
    · cases h
    · next hv =>
      cases h
      have hread := Word.read_raw_append false t hu
      have hop' : operator? ((Word.read false t).raw ++ u) = none := by
        have hfront := sameFront_append hne hu
        rw [← happ] at hfront
        exact operator?_eq_none_of_sameFront hfront hop
      show operatorOrWord? m ((Word.read false t).raw ++ u) = _
      rw [operatorOrWord?, hop']
      simp only [word?, hread, hv]
      rfl

/-- Where a text has no mark and no handle, one with the same front has an operator or a word. -/
theorem read?_eq_operatorOrWord? (hfront : SameFront u t)
    (hmark : (if m.atHead then mark? m t else none) = none)
    (hhandle : (if m.afterRedirection then handle? m t else none) = none) :
    read? m u = operatorOrWord? m u := by
  have hmark' : (if m.atHead then mark? m u else none) = none := by
    rw [ite_eq_right_iff] at hmark ⊢
    exact fun hm => mark?_eq_none_of_sameFront hfront (hmark hm)
  have hhandle' : (if m.afterRedirection then handle? m u else none) = none := by
    rw [ite_eq_right_iff] at hhandle ⊢
    exact fun hr => handle?_eq_none_of_sameFront hfront (hhandle hr)
  rw [read?, hmark', hhandle']
  rfl

/-- Where a text has no mark, one with the same front has a handle if it starts with one. -/
theorem read?_eq_handle? {l' : Lexeme} (hfront : SameFront u t)
    (hmark : (if m.atHead then mark? m t else none) = none) (hr : m.afterRedirection = true)
    (h : handle? m u = some l') : read? m u = some l' := by
  have hmark' : (if m.atHead then mark? m u else none) = none := by
    rw [ite_eq_right_iff] at hmark ⊢
    exact fun hm => mark?_eq_none_of_sameFront hfront (hmark hm)
  rw [read?, hmark', if_pos hr, h]
  rfl

/-- A lexeme is found again where the text goes on alike. -/
theorem read?_raw_append (h : read? m t = some l) (hu : u.StartsLike l.rest) :
    read? m (l.raw ++ u) = some { l with rest := u } := by
  obtain ⟨happ, hne⟩ := read?_eq_some h
  have hfront := sameFront_append hne hu
  rw [← happ] at hfront
  simp only [read?, Option.or_eq_some_iff, Option.or_eq_none_iff] at h
  rcases h with (h | ⟨hmark, h⟩) | ⟨⟨hmark, hhandle⟩, h⟩
  · split at h
    · next hm =>
      rw [read?, if_pos hm, mark?_raw_append h hu]
      rfl
    · cases h
  · split at h
    · next hr => exact read?_eq_handle? hfront hmark hr (handle?_raw_append h hu)
    · cases h
  · rw [read?_eq_operatorOrWord? hfront hmark hhandle]
    exact operatorOrWord?_raw_append h hu

/-! ## The front of a lexeme -/

theorem mark?_not_mem (h : mark? m t = some l) : char '@' ∉ l.raw := by
  unfold mark? at h
  split at h
  · cases h
    simp
  · cases h
    simp
  · cases h

/-- The part of a handle before an `@` is a handle as well. -/
theorem handle?_front {x y : Text} (h : handle? m t = some l) (hx : x ≠ [])
    (hraw : l.raw = x ++ char '@' :: y) :
    ∃ l', handle? m x = some l' ∧ l'.rest = [] ∧ l'.mode.atHead = m.atHead := by
  unfold handle? at h
  split at h
  · next d cs =>
    split at h
    · next hd =>
      cases h
      obtain ⟨c, ds, rfl⟩ := List.exists_cons_of_ne_nil hx
      obtain ⟨rfl, hds⟩ := List.cons.inj hraw
      have hplain := Word.read_plain (isPlain_of_isDigit hd) cs
      have hfirst : ds.head? = some d := by
        have hhead := congrArg List.head? hds
        rw [hplain] at hhead
        cases ds with
        | nil =>
          -- an `@` is no digit
          cases hhead
          revert hd
          decide
        | cons e es => exact hhead.symm
      obtain ⟨es, rfl⟩ := List.head?_eq_some_iff.1 hfirst
      have hrest := (Word.read_front hds).2
      rw [handle?, if_pos hd]
      exact ⟨_, rfl, hrest, rfl⟩
    · cases h
  · cases h

/-- The part of a word before an `@` is a word as well, unless it ends with a caret. -/
theorem word?_front {x y : Text} (h : word? m t = some l) (hx : x ≠ [])
    (hraw : l.raw = x ++ char '@' :: y) :
    x.getLast? = some (char '^') ∨
      ∃ l', word? m x = some l' ∧ l'.rest = [] ∧ l'.mode.atHead = false := by
  unfold word? at h
  split at h
  · cases h
  · cases h
    obtain ⟨hfront, hrest⟩ := Word.read_front hraw
    cases hv : (Word.read false x).value with
    | nil =>
      -- a caret by itself protects the `@`
      rw [Word.value_eq_unescape, hfront] at hv
      rcases Word.unescape_eq_nil hv with rfl | rfl
      · exact absurd rfl hx
      · exact Or.inl rfl
    | cons c cs =>
      refine Or.inr ⟨ofWord m (Word.read false x), ?_, hrest, rfl⟩
      rw [word?, hv]
      rfl

/-- In front of an `@` inside of it a lexeme ends with a caret, or what is there is a lexeme up to
its end, behind which no statement may start. -/
theorem read?_front {x y : Text} (hm : m.Sound) (h : read? m t = some l) (hx : x ≠ [])
    (hraw : l.raw = x ++ char '@' :: y) :
    x.getLast? = some (char '^') ∨
      ∃ l', read? m x = some l' ∧ l'.rest = [] ∧ l'.mode.atHead = false := by
  obtain ⟨happ, -⟩ := read?_eq_some h
  have hmem : char '@' ∈ l.raw := by
    rw [hraw]
    exact List.mem_append_right x List.mem_cons_self
  -- what decides on the lexeme is in front of the `@`, or missing
  have hfront : SameFront x t := by
    have hnil : Text.StartsLike [] (char '@' :: y ++ l.rest) := Or.inl rfl
    have hsame := sameFront_append hx hnil
    rwa [List.append_nil, ← List.append_assoc, ← hraw, ← happ] at hsame
  simp only [read?, Option.or_eq_some_iff, Option.or_eq_none_iff] at h
  rcases h with (h | ⟨hmark, h⟩) | ⟨⟨hmark, hhandle⟩, h⟩
  · split at h
    · exact absurd hmem (mark?_not_mem h)
    · cases h
  · split at h
    · next hr =>
      obtain ⟨l', hl', hrest, hhead⟩ := handle?_front h hx hraw
      rw [hm.atHead_eq_false hr] at hhead
      exact Or.inr ⟨l', read?_eq_handle? hfront hmark hr hl', hrest, hhead⟩
    · cases h
  · rw [read?_eq_operatorOrWord? hfront hmark hhandle]
    unfold operatorOrWord? at h
    split at h
    · next kind rest hop =>
      cases h
      -- no operator holds an `@`
      rcases mem_fixedText (operator?_eq_some_iff.1 hop).1 hmem with hc | hc <;>
        simp [isOperatorChar] at hc
    · next hop =>
      rw [operatorOrWord?, operator?_eq_none_of_sameFront hfront hop]
      exact word?_front h hx hraw

end Lexeme

end Token

end BatchScript
