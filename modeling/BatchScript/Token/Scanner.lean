import BatchScript.Source.Place
import BatchScript.Token.Lexeme

/-!
# Scanning a text into tokens

A scanner holds what is left of a text, the place of its first character, and the mode. A step skips
blanks, carets that protect nothing, and the `@` signs where a statement may start, and then takes
one token. Every line break is a token and puts the mode back to the start of a line.

Main statement: a token leaves less of the text than there was (`Scanner.next_rest_lt`), so a
scanner reaches the end of its text.
-/

namespace BatchScript

namespace Token

/-- What is left of a text, with its mode and place. -/
structure Scanner where
  mode : Mode
  place : Place
  rest : Text
  deriving DecidableEq, Repr

/-- A token at a place, with the flag of the mode in which it was read. -/
def placed (t : Token) (m : Mode) (p : Place) : PlacedToken :=
  ⟨t, m.invisible, p.line, p.column⟩

namespace Scanner

/-- A scanner at the start of a text. -/
def ofText (t : Text) : Scanner :=
  ⟨.start, .start, t⟩

/-- The scanner behind a lexeme that starts at the given place. -/
def behind (l : Lexeme) (p : Place) : Scanner :=
  ⟨l.mode, p.afterText l.raw, l.rest⟩

/-- The next token of a text and the scanner behind it; no token is left at the end. Behind a word
that stands for nothing the scanner goes on. -/
def nextFrom (m : Mode) (p : Place) : Text → Option PlacedToken × Scanner
  | [] => (none, ⟨m, p, []⟩)
  | c :: cs =>
    if _hblank : Text.isBlank c then nextFrom m (p.after c) cs
    else if _hline : c = '\n' then
      (some (placed (.ofKind .newLine) m p), ⟨.start, p.after c, cs⟩)
    else if c = '@' ∧ m.atHead = true then
      nextFrom { m with invisible := true } (p.after c) cs
    else
      match _h : Lexeme.read? m (c :: cs) with
      | some l => (some (placed l.token m p), behind l p)
      | none =>
        let w := Word.read false (c :: cs)
        nextFrom m (p.afterText w.raw) w.rest
  termination_by t => t.length
  decreasing_by
    · exact Nat.lt_succ_self _
    · exact Nat.lt_succ_self _
    · exact Lexeme.word_rest_lt _hblank _hline _h

/-- The next token and the scanner behind it. -/
def next (s : Scanner) : Option PlacedToken × Scanner :=
  nextFrom s.mode s.place s.rest

/-- A token leaves less of the text than there was. -/
theorem nextFrom_rest_lt {m : Mode} {p : Place} {t : Text} {token : PlacedToken}
    (h : (nextFrom m p t).1 = some token) : (nextFrom m p t).2.rest.length < t.length := by
  fun_induction nextFrom m p t with
  | case1 => simp at h
  | case2 m p c cs _ ih =>
    have := ih h
    simp only [List.length_cons]
    omega
  | case3 => simp
  | case4 m p c cs _ _ _ ih =>
    have := ih h
    simp only [List.length_cons]
    omega
  | case5 m p c cs _ _ _ l hl =>
    obtain ⟨happ, hne⟩ := Lexeme.read?_eq_some hl
    have hlen := congrArg List.length happ
    have := List.length_pos_iff.2 hne
    simp only [List.length_append] at hlen
    simp only [behind]
    omega
  | case6 m p c cs hblank hline _ hnone w ih =>
    have hword := Lexeme.word_rest_lt hblank hline hnone
    exact Nat.lt_trans (ih h) hword

/-- A token leaves less of the text than there was. -/
theorem next_rest_lt {s s' : Scanner} {token : PlacedToken} (h : s.next = (some token, s')) :
    s'.rest.length < s.rest.length := by
  have hlt : s.next.2.rest.length < s.rest.length :=
    nextFrom_rest_lt (congrArg Prod.fst h)
  rwa [h] at hlt

/-- All tokens up to the end of the text, and the scanner there. -/
def drain (s : Scanner) : List PlacedToken × Scanner :=
  match h : s.next with
  | (none, s') => ([], s')
  | (some token, s') =>
    have := next_rest_lt h
    let (tokens, last) := s'.drain
    (token :: tokens, last)
  termination_by s.rest.length

end Scanner

/-- The tokens of a text. -/
def ofText (t : Text) : List PlacedToken :=
  (Scanner.ofText t).drain.1

end Token

end BatchScript
