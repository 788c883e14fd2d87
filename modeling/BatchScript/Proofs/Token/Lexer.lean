import BatchScript.Proofs.Source.Cursor
import BatchScript.Proofs.Token.Scans
import BatchScript.Token.Lexer

/-!
# Calls of a lexer

A caller may put a lexer anywhere and in any mode, and call it as often as it likes. A call fails
only where the cursor stands further back than the source is long. Every other call takes a token
and moves on, at most up to the end, or takes none and stands at the end, where a lexer stays as it
is.

> `next_spec`: what one call does;
> `iterates_to_end`: the calls in turn come to an end, and what they give.
-/

namespace BatchScript

namespace Token

namespace Scanner

/-- What a scanner leaves is the end of what it had. -/
theorem nextFrom_suffix (m : Mode) (p : Place) (t : Text) : (nextFrom m p t).2.rest <:+ t := by
  fun_induction nextFrom m p t with
  | case1 => exact List.suffix_rfl
  | case3 => exact List.suffix_cons _ _
  | case5 m p c cs _ _ _ l hl => exact ⟨l.raw, (Lexeme.read?_eq_some hl).1.symm⟩
  | case2 | case4 => exact List.IsSuffix.trans ‹_› (List.suffix_cons _ _)
  | case6 m p c cs _ _ _ _ w ih => exact ih.trans ⟨w.raw, Word.raw_append_rest false _⟩

/-- Without a token nothing is left. -/
theorem nextFrom_eq_none {m : Mode} {p : Place} {t : Text} (h : (nextFrom m p t).1 = none) :
    (nextFrom m p t).2.rest = [] := by
  fun_induction nextFrom m p t with
  | case1 => rfl
  | case3 => cases h
  | case5 => cases h
  | case2 | case4 | case6 => exact ‹_ → _› h

end Scanner

namespace Lexer

/-! ## One call -/

/-- What a call does to a lexer: with a token it moves on, at most up to the end, and without one it
stands at the end. -/
inductive Moves (l l' : Lexer) : Option PlacedToken → Prop
  | token (t : PlacedToken) : max l.cursor.position 0 < l'.cursor.position →
      l'.cursor.position ≤ l.cursor.source.length → Moves l l' (some t)
  | done : l.cursor.source.length ≤ l'.cursor.position → Moves l l' none

/-- A lexer at or behind position zero need not walk to the start. -/
theorem toStart_of_nonneg {l : Lexer} (h : 0 ≤ l.cursor.position) : l.toStart = .ok l := by
  rw [toStart, Cursor.toStart_of_nonneg h]
  rfl

/-- A lexer that stands in range gets to the start of its source, or stays where it is behind
it. -/
theorem toStart_of_inRange {l : Lexer} (h : l.cursor.InRange) : ∃ l₀, l.toStart = .ok l₀ ∧
    l₀.cursor.source = l.cursor.source ∧ l₀.cursor.position = max l.cursor.position 0 := by
  obtain ⟨place, hstart⟩ := Cursor.toStart_of_inRange h
  refine ⟨⟨⟨l.cursor.source, max l.cursor.position 0, place⟩, l.mode⟩, ?_, rfl, rfl⟩
  rw [toStart, hstart]
  rfl

/-- A call is one of the scanner once the cursor has walked to the start. -/
theorem next_of_toStart {l l₀ : Lexer} (h : l.toStart = .ok l₀) :
    l.next = .ok (l₀.scanner.next.1, l₀.upTo l₀.scanner.next.2) := by
  rw [next, h]
  rfl

/-- All further tokens are those of the scanner once the cursor has walked to the start. -/
theorem drain_of_toStart {l l₀ : Lexer} (h : l.toStart = .ok l₀) :
    l.drain = .ok (l₀.scanner.drain.1, l₀.upTo l₀.scanner.drain.2) := by
  rw [drain, h]
  rfl

/-- Too far before its source a lexer does not get to the start. -/
theorem toStart_of_not_inRange {l : Lexer} (h : ¬l.cursor.InRange) :
    l.toStart = .error .outOfRange := by
  rw [toStart, Cursor.toStart_of_not_inRange h]
  rfl

/-- Too far before its source every call fails. -/
theorem next_of_not_inRange {l : Lexer} (h : ¬l.cursor.InRange) :
    l.next = .error .outOfRange := by
  rw [next, toStart_of_not_inRange h]
  rfl

/-- A lexer that has walked on to the start stands at or behind it. -/
theorem nonneg_of_toStart {l l₀ : Lexer} (h : l.toStart = .ok l₀) : 0 ≤ l₀.cursor.position := by
  by_cases hrange : l.cursor.InRange
  · obtain ⟨l₁, hstart, -, hposition⟩ := toStart_of_inRange hrange
    rw [h] at hstart
    cases hstart
    omega
  · rw [toStart_of_not_inRange hrange] at h
    cases h

section UpTo

variable {l : Lexer} {s : Scanner}

/-- A lexer stays at or behind position zero when it moves on with a scanner. -/
theorem nonneg_upTo (hpos : 0 ≤ l.cursor.position) (hs : s.rest <:+ l.cursor.rest) :
    0 ≤ (l.upTo s).cursor.position := by
  have hlen := hs.length_le
  show 0 ≤ l.cursor.position + (l.cursor.rest.length - s.rest.length)
  omega

/-- A lexer where a scanner of its rest has come to reads on as the scanner does. -/
theorem scanner_upTo (hpos : 0 ≤ l.cursor.position) (hs : s.rest <:+ l.cursor.rest) :
    (l.upTo s).scanner = s := by
  rw [scanner, upTo, Cursor.rest_leaving hpos hs]
  rfl

/-- To move on twice is to move on to the second scanner. -/
theorem upTo_upTo (hpos : 0 ≤ l.cursor.position) (hs : s.rest <:+ l.cursor.rest) (s' : Scanner) :
    (l.upTo s).upTo s' = l.upTo s' := by
  have hrest : (l.cursor.leaving s.rest s.place).rest = s.rest :=
    Cursor.rest_leaving hpos hs s.place
  have hposition : (l.cursor.leaving s.rest s.place).position +
      (s.rest.length - s'.rest.length : Int) =
        l.cursor.position + (l.cursor.rest.length - s'.rest.length) := by
    show l.cursor.position + (l.cursor.rest.length - s.rest.length : Int) + _ = _
    omega
  show Lexer.mk ((l.cursor.leaving s.rest s.place).leaving s'.rest s'.place) s'.mode = _
  rw [Cursor.leaving, hrest, hposition]
  rfl

end UpTo

/-- What a call does to a lexer that is not too far back. -/
theorem next_spec {l : Lexer} (h : l.cursor.InRange) : ∃ answer l', l.next = .ok (answer, l') ∧
    l'.cursor.source = l.cursor.source ∧ l.Moves l' answer := by
  obtain ⟨l₀, hstart, hsource, hposition⟩ := toStart_of_inRange h
  refine ⟨_, _, next_of_toStart hstart, hsource, ?_⟩
  have hlen := l₀.cursor.length_rest
  rw [hsource] at hlen
  have hto : (l₀.upTo l₀.scanner.next.2).cursor.position =
      l₀.cursor.position + (l₀.cursor.rest.length - l₀.scanner.next.2.rest.length) := rfl
  cases htoken : l₀.scanner.next.1 with
  | some t =>
    have hlt : l₀.scanner.next.2.rest.length < l₀.cursor.rest.length :=
      Scanner.nextFrom_rest_lt htoken
    exact .token t (by omega) (by omega)
  | none =>
    have hnil : l₀.scanner.next.2.rest.length = 0 := by
      rw [show l₀.scanner.next.2.rest = [] from Scanner.nextFrom_eq_none htoken]
      rfl
    exact .done (by omega)

/-- At the end of its source a lexer takes no token and stays as it is. -/
theorem next_of_length_le {l : Lexer} (h : l.cursor.source.length ≤ l.cursor.position) :
    l.next = .ok (none, l) := by
  have hrest : l.cursor.rest = [] := List.drop_of_length_le (by omega)
  have hscanner : l.scanner.next = (none, l.scanner) := by
    simp only [scanner, Scanner.next, hrest, Scanner.nextFrom]
  rw [next_of_toStart (toStart_of_nonneg (by omega)), hscanner]
  simp [upTo, scanner, Cursor.leaving]

/-! ## Calls in turn -/

/-- The tokens of a lexer that is called up to the first call that takes none or fails, with the
lexer there or the fault. -/
inductive Iterates : Lexer → List PlacedToken → Except Cursor.Fault Lexer → Prop
  | ends {l l' : Lexer} : l.next = .ok (none, l') → Iterates l [] (.ok l')
  | fails {l : Lexer} {fault : Cursor.Fault} : l.next = .error fault →
      Iterates l [] (.error fault)
  | token {l l' : Lexer} {t : PlacedToken} {ts : List PlacedToken}
      {result : Except Cursor.Fault Lexer} : l.next = .ok (some t, l') →
      Iterates l' ts result → Iterates l (t :: ts) result

/-- The lexers that a lexer comes to by calls, whatever they give. -/
inductive Reaches (l : Lexer) : Lexer → Prop
  | refl : Reaches l l
  | call {l' l'' : Lexer} {answer : Option PlacedToken} : Reaches l l' →
      l'.next = .ok (answer, l'') → Reaches l l''

/-- A call leaves a lexer in range. -/
theorem Moves.inRange {l l' : Lexer} {answer : Option PlacedToken} (h : l.Moves l' answer)
    (hsource : l'.cursor.source = l.cursor.source) : l'.cursor.InRange := by
  unfold Cursor.InRange
  rw [hsource]
  cases h with
  | token t hlt hle => omega
  | done hle => omega

/-- What a call that does not fail did. -/
theorem moves_of_next {l l' : Lexer} {answer : Option PlacedToken} (h : l.cursor.InRange)
    (hnext : l.next = .ok (answer, l')) :
    l'.cursor.source = l.cursor.source ∧ l.Moves l' answer := by
  obtain ⟨answer', l'', hnext', hsource, hmoves⟩ := next_spec h
  rw [hnext] at hnext'
  cases hnext'
  exact ⟨hsource, hmoves⟩

/-- Calls leave a lexer in range, with its source. -/
theorem Reaches.inRange {l l' : Lexer} (h : l.cursor.InRange) (hreach : l.Reaches l') :
    l'.cursor.source = l.cursor.source ∧ l'.cursor.InRange := by
  induction hreach with
  | refl => exact ⟨rfl, h⟩
  | call _ hnext ih =>
    obtain ⟨hsource, hmoves⟩ := moves_of_next ih.2 hnext
    exact ⟨hsource.trans ih.1, hmoves.inRange hsource⟩

/-- The calls come to an end. -/
theorem exists_iterates (l : Lexer) : ∃ ts result, l.Iterates ts result := by
  by_cases h : l.cursor.InRange
  · obtain ⟨answer, l', hnext, hsource, hmoves⟩ := next_spec h
    cases hmoves with
    | done => exact ⟨[], _, .ends hnext⟩
    | token t hlt hle =>
      have hless : (l'.cursor.source.length - max l'.cursor.position 0).toNat <
          (l.cursor.source.length - max l.cursor.position 0).toNat := by
        rw [hsource]
        omega
      obtain ⟨ts, result, hrest⟩ := exists_iterates l'
      exact ⟨t :: ts, result, .token hnext hrest⟩
  · exact ⟨[], _, .fails (next_of_not_inRange h)⟩
  termination_by (l.cursor.source.length - max l.cursor.position 0).toNat

/-- A call that does not fail started in range. -/
theorem inRange_of_next {l l' : Lexer} {answer : Option PlacedToken}
    (h : l.next = .ok (answer, l')) : l.cursor.InRange := by
  by_contra hrange
  rw [next_of_not_inRange hrange] at h
  cases h

/-- The only fault is that the cursor stands too far back. -/
theorem eq_outOfRange_of_next {l : Lexer} {fault : Cursor.Fault} (h : l.next = .error fault) :
    fault = .outOfRange ∧ ¬l.cursor.InRange := by
  by_cases hrange : l.cursor.InRange
  · obtain ⟨answer, l', hnext, -⟩ := next_spec hrange
    rw [h] at hnext
    cases hnext
  · rw [next_of_not_inRange hrange] at h
    cases h
    exact ⟨rfl, hrange⟩

/-- Calls that end with a fault end at the first one. -/
theorem Iterates.fault {l : Lexer} {ts : List PlacedToken} {result : Except Cursor.Fault Lexer}
    (h : l.Iterates ts result) :
    ∀ fault, result = .error fault → fault = .outOfRange ∧ ¬l.cursor.InRange := by
  induction h with
  | ends =>
    intro fault hfault
    cases hfault
  | fails hnext =>
    intro fault hfault
    cases hfault
    exact eq_outOfRange_of_next hnext
  | token hnext _ ih =>
    intro fault hfault
    obtain ⟨hsource, hmoves⟩ := moves_of_next (inRange_of_next hnext) hnext
    exact absurd (hmoves.inRange hsource) (ih fault hfault).2

/-- Calls of a lexer that stands too far back end with a fault. -/
theorem Iterates.eq_error {l : Lexer} {ts : List PlacedToken} {result : Except Cursor.Fault Lexer}
    (h : l.Iterates ts result) (hrange : ¬l.cursor.InRange) : result = .error .outOfRange := by
  cases h with
  | ends hnext | token hnext => exact absurd (inRange_of_next hnext) hrange
  | fails hnext => rw [(eq_outOfRange_of_next hnext).1]

/-- There are no more tokens than characters that are left. -/
theorem Iterates.length_le {l : Lexer} {ts : List PlacedToken}
    {result : Except Cursor.Fault Lexer} (h : l.Iterates ts result) : l.cursor.InRange →
      (ts.length : Int) ≤ max (l.cursor.source.length - max l.cursor.position 0) 0 := by
  induction h with
  | ends | fails =>
    intro _
    exact Int.le_max_right _ _
  | @token l l' t ts result hnext _ ih =>
    intro hrange
    obtain ⟨hsource, hmoves⟩ := moves_of_next hrange hnext
    have hrest := ih (hmoves.inRange hsource)
    rw [hsource] at hrest
    cases hmoves with
    | token t hlt hle =>
      rw [List.length_cons]
      omega

/-- A lexer that drains its source in one go gives what the calls give in turn. -/
theorem Iterates.drain_eq {l : Lexer} {ts : List PlacedToken}
    {result : Except Cursor.Fault Lexer} (h : l.Iterates ts result) :
    l.drain = result.map (ts, ·) := by
  induction h with
  | @ends l l' hnext =>
    cases hstart : l.toStart with
    | error fault => rw [next, hstart] at hnext; cases hnext
    | ok l₀ =>
      rw [next_of_toStart hstart] at hnext
      obtain ⟨hnone, rfl⟩ := Prod.mk.inj (Except.ok.inj hnext)
      rw [drain_of_toStart hstart, Scanner.drain_of_next_eq_none (Prod.ext hnone rfl)]
      rfl
  | @fails l fault hnext =>
    cases hstart : l.toStart with
    | error fault' =>
      rw [next, hstart] at hnext
      cases hnext
      rw [drain, hstart]
      rfl
    | ok l₀ => rw [next_of_toStart hstart] at hnext; cases hnext
  | @token l l' t ts result hnext _ ih =>
    cases hstart : l.toStart with
    | error fault => rw [next, hstart] at hnext; cases hnext
    | ok l₀ =>
      rw [next_of_toStart hstart] at hnext
      obtain ⟨hsome, rfl⟩ := Prod.mk.inj (Except.ok.inj hnext)
      -- the lexer behind the token goes on where the scanner does
      have hpos := nonneg_of_toStart hstart
      have hsuffix : l₀.scanner.next.2.rest <:+ l₀.cursor.rest := Scanner.nextFrom_suffix _ _ _
      rw [drain_of_toStart (toStart_of_nonneg (nonneg_upTo hpos hsuffix)),
        scanner_upTo hpos hsuffix, upTo_upTo hpos hsuffix] at ih
      rw [drain_of_toStart hstart, Scanner.drain_of_next_eq_some (Prod.ext hsome rfl)]
      cases result with
      | error fault => cases ih
      | ok last =>
        obtain ⟨rfl, rfl⟩ := Prod.mk.inj (Except.ok.inj ih)
        rfl

/-- Where a lexer has taken no token it stays, whatever calls follow. -/
theorem Reaches.eq_of_done {last later : Lexer} (h : last.Reaches later)
    (hdone : last.cursor.source.length ≤ last.cursor.position) : later = last := by
  induction h with
  | refl => rfl
  | call _ hnext ih =>
    rw [ih, next_of_length_le hdone] at hnext
    cases hnext
    rfl

/-- **A lexer comes to the end of its source from any position, at any place and in any mode.** The
calls in turn end, and what they give is what draining the lexer in one go gives. They fail exactly
where the cursor stands further back than the source is long. Otherwise there are no more tokens
than characters are left, every call that gives a token moves on and stays within the source, and
behind a call that gives none every call gives none and leaves the lexer as it is. -/
theorem iterates_to_end (l : Lexer) :
    (∃ ts result, l.Iterates ts result) ∧
      ∀ ts result, l.Iterates ts result →
        l.drain = result.map (ts, ·) ∧
        (result = .error .outOfRange ↔ l.cursor.position < -(l.cursor.source.length : Int)) ∧
        (∀ fault, result = .error fault → fault = .outOfRange) ∧
        (-(l.cursor.source.length : Int) ≤ l.cursor.position →
          (ts.length : Int) ≤ max (l.cursor.source.length - max l.cursor.position 0) 0 ∧
          (∀ l' t l'', l.Reaches l' → l'.next = .ok (some t, l'') →
            l'.cursor.position < l''.cursor.position ∧
              l''.cursor.position ≤ l.cursor.source.length) ∧
          ∀ l' last, l.Reaches l' → l'.next = .ok (none, last) →
            ∀ later, last.Reaches later →
              later = last ∧ later.next = .ok (none, later)) := by
  refine ⟨exists_iterates l, fun ts result h =>
    ⟨h.drain_eq, ?_, fun fault hfault => (h.fault fault hfault).1, fun hrange => ?_⟩⟩
  · rw [← Int.not_le, ← Cursor.InRange]
    exact ⟨fun hresult => (h.fault _ hresult).2, h.eq_error⟩
  · refine ⟨h.length_le hrange, fun l' t l'' hreach hnext => ?_,
      fun l' last hreach hnext later hlater => ?_⟩
    · obtain ⟨hsource, hrange'⟩ := hreach.inRange hrange
      obtain ⟨-, hmoves⟩ := moves_of_next hrange' hnext
      cases hmoves with
      | token t hlt hle =>
        rw [hsource] at hle
        exact ⟨by omega, hle⟩
    · obtain ⟨-, hrange'⟩ := hreach.inRange hrange
      obtain ⟨hsource, hmoves⟩ := moves_of_next hrange' hnext
      cases hmoves with
      | done hle =>
        rw [← hsource] at hle
        -- at the end a call changes nothing, so all later calls meet the same lexer
        obtain rfl := hlater.eq_of_done hle
        exact ⟨rfl, next_of_length_le hle⟩

end Lexer

end Token

end BatchScript
