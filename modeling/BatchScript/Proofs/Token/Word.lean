import BatchScript.Proofs.Text.Words
import BatchScript.Token.Word

/-!
# Bare words, rule by rule

The equations of `Word.read`, one for each sort of character, and what the text behind a word does
to it. A line break ends a word wherever it stands. A blank or an operator character ends it outside
of quotes. Inside quotes both belong to the word, so a word with an open quote ends with its line.
-/

namespace BatchScript

namespace Token

namespace Word

/-- A character that belongs to a word wherever it stands outside of quotes, and stands for
itself. -/
def isPlain (c : CodePoint) : Bool :=
  c != '\n' && !Text.isBlank c && !isOperatorChar c && c != '^'

/-- A character that ends a word outside of quotes. -/
def isEnd (c : CodePoint) : Bool :=
  Text.isBlank c || isOperatorChar c

theorem read_nil (quoted : Bool) : read quoted [] = ⟨[], [], []⟩ := by
  cases quoted <;> rfl

/-- How a word goes on with a character; the equations below are its branches. -/
theorem read_cons (quoted : Bool) (c : CodePoint) (cs : Text) : read quoted (c :: cs) =
    if c = '\n' then ⟨[], [], c :: cs⟩
    else if quoted then push c (read (c != '"') cs)
    else if Text.isBlank c || isOperatorChar c then ⟨[], [], c :: cs⟩
    else if c = '^' then
      match cs with
      | [] => ⟨['^'], [], []⟩
      | d :: ds => if d = '\n' then ⟨['^'], [], d :: ds⟩ else pushEscaped d (read false ds)
    else push c (read (c == '"') cs) := by
  cases cs <;> rfl

theorem read_newLine (quoted : Bool) (cs : Text) :
    read quoted (char '\n' :: cs) = ⟨[], [], char '\n' :: cs⟩ := by
  rw [read_cons]
  simp

/-- Inside quotes every character of the line belongs to the word. -/
theorem read_quoted {c : CodePoint} (hc : c ≠ '\n') (cs : Text) :
    read true (c :: cs) = push c (read (c != '"') cs) := by
  rw [read_cons]
  simp [hc]

theorem read_end {c : CodePoint} (hc : isEnd c = true) (cs : Text) :
    read false (c :: cs) = ⟨[], [], c :: cs⟩ := by
  rw [read_cons]
  simp only [isEnd] at hc
  simp [hc]

theorem read_caret_nil : read false ['^'] = ⟨['^'], [], []⟩ := by
  rw [read_cons]
  simp [Text.isBlank, isOperatorChar]

theorem read_caret_newLine (cs : Text) :
    read false (char '^' :: char '\n' :: cs) = ⟨['^'], [], char '\n' :: cs⟩ := by
  rw [read_cons]
  simp [Text.isBlank, isOperatorChar]

/-- A caret takes the next character literally. -/
theorem read_caret {d : CodePoint} (hd : d ≠ '\n') (cs : Text) :
    read false (char '^' :: d :: cs) = pushEscaped d (read false cs) := by
  rw [read_cons]
  simp [Text.isBlank, isOperatorChar, hd]

theorem read_plain {c : CodePoint} (hc : isPlain c = true) (cs : Text) :
    read false (c :: cs) = push c (read (c == '"') cs) := by
  simp only [isPlain, Bool.and_eq_true, bne_iff_ne, Bool.not_eq_true'] at hc
  obtain ⟨⟨⟨hline, hblank⟩, hop⟩, hcaret⟩ := hc
  rw [read_cons]
  simp [hline, hblank, hop, hcaret]

/-- A character outside of quotes ends the word, is a caret, or is plain. -/
theorem char_cases (c : CodePoint) : c = '\n' ∨ isEnd c = true ∨ c = '^' ∨ isPlain c = true := by
  by_cases hline : c = '\n'
  · exact Or.inl hline
  by_cases hend : isEnd c = true
  · exact Or.inr (Or.inl hend)
  by_cases hcaret : c = '^'
  · exact Or.inr (Or.inr (Or.inl hcaret))
  · rw [isEnd, Bool.or_eq_true, not_or] at hend
    exact Or.inr (Or.inr (Or.inr (by simp [isPlain, hline, hcaret, hend])))

/-! ## More text behind -/

/-- The word with more text behind what follows it. -/
def followedBy (w : Word) (t : Text) : Word :=
  { w with rest := w.rest ++ t }

theorem push_followedBy (c : CodePoint) (w : Word) (t : Text) :
    (push c w).followedBy t = push c (w.followedBy t) := rfl

theorem pushEscaped_followedBy (c : CodePoint) (w : Word) (t : Text) :
    (pushEscaped c w).followedBy t = pushEscaped c (w.followedBy t) := rfl

/-- Whether a text leaves no quotes open and ends with no caret that would take the next
character. -/
def isClosed : (quoted : Bool) → Text → Bool
  | quoted, [] => !quoted
  | quoted, c :: cs =>
    if quoted then isClosed (c != '"') cs
    else if c = '^' then
      match cs with
      | [] => false
      | _ :: ds => isClosed false ds
    else isClosed (c == '"') cs

/-- Inside of quotes a quote closes them, and every other character leaves them open. -/
theorem isClosed_quoted (c : CodePoint) (cs : Text) :
    isClosed true (c :: cs) = isClosed (c != '"') cs := by
  cases cs <;> simp [isClosed]

/-- Outside of quotes a caret takes the next character with it. -/
theorem isClosed_caret (c : CodePoint) (cs : Text) :
    isClosed false (char '^' :: c :: cs) = isClosed false cs := by
  simp [isClosed]

theorem isClosed_own {c : CodePoint} (hc : c ≠ '^') (cs : Text) :
    isClosed false (c :: cs) = isClosed (c == '"') cs := by
  cases cs <;> simp [isClosed, hc]

/-- Behind a closed text another one is closed if it is so by itself. -/
theorem isClosed_append {u : Text} : ∀ {quoted : Bool} {t : Text}, isClosed quoted t = true →
    isClosed quoted (t ++ u) = isClosed false u
  | quoted, [], h => by
    obtain rfl : quoted = false := by simpa [isClosed] using h
    rfl
  | true, c :: cs, h => by
    rw [isClosed_quoted] at h
    rw [List.cons_append, isClosed_quoted, isClosed_append h]
  | false, c :: cs, h => by
    by_cases hc : c = '^'
    · subst hc
      cases cs with
      | nil => cases h
      | cons d ds =>
        rw [isClosed_caret] at h
        rw [List.cons_append, List.cons_append, isClosed_caret, isClosed_append h]
    · rw [isClosed_own hc] at h
      rw [List.cons_append, isClosed_own hc, isClosed_append h]

theorem ne_caret_of_isPlain {c : CodePoint} (hc : isPlain c = true) : c ≠ '^' := by
  rintro rfl
  cases hc

/-- A word that something on its line follows is written with a closed text. -/
theorem isClosed_raw {c : CodePoint} {cs : Text} (hc : c ≠ '\n') : ∀ {quoted : Bool} {t : Text},
    (read quoted t).rest = c :: cs → isClosed quoted (read quoted t).raw = true := by
  intro quoted t
  fun_induction read quoted t with
  | case1 | case5 =>
    -- the text has come to its end, so nothing follows
    intro h
    cases h
  | case2 | case6 =>
    -- only a line break ends the word here, and it is not on the line
    intro h
    exact absurd (List.cons.inj h).1.symm hc
  | case3 d ds _ ih =>
    intro h
    rw [push, isClosed_quoted]
    exact ih h
  | case4 quoted d ds _ hquoted _ =>
    intro _
    obtain rfl : quoted = false := by simpa using hquoted
    rfl
  | case7 quoted hquoted d ds _ _ _ ih =>
    intro h
    obtain rfl : quoted = false := by simpa using hquoted
    rw [pushEscaped, isClosed_caret]
    exact ih h
  | case8 quoted d ds _ hquoted _ hcaret ih =>
    intro h
    obtain rfl : quoted = false := by simpa using hquoted
    rw [push, isClosed_own hcaret]
    exact ih h

/-- Whether a character behind a text ends the word there, if the word has not ended before: a line
break always does, and a blank does where the text leaves nothing open. -/
def Ends (quoted : Bool) (t : Text) (d : CodePoint) : Prop :=
  d = '\n' ∨ (Text.isBlank d = true ∧ isClosed quoted t = true)

/-- Whether a character ends a word depends on what the text leaves open. -/
theorem Ends.of_closed {quoted quoted' : Bool} {t u : Text} {d : CodePoint} (h : Ends quoted t d)
    (hclosed : isClosed quoted t = isClosed quoted' u) : Ends quoted' u d := by
  rwa [Ends, ← hclosed]

/-- A word ends before a character that ends it as it ends at the end of the text. -/
theorem read_append {d : CodePoint} (u : Text) : ∀ (quoted : Bool) (t : Text), Ends quoted t d →
    read quoted (t ++ d :: u) = (read quoted t).followedBy (d :: u)
  | quoted, [], h => by
    rw [List.nil_append, read_nil]
    rcases h with rfl | ⟨hblank, hclosed⟩
    · rw [read_newLine]
      rfl
    · obtain rfl : quoted = false := by simpa [isClosed] using hclosed
      rw [read_end (by rw [isEnd, hblank, Bool.true_or])]
      rfl
  | true, c :: cs, h => by
    by_cases hline : c = '\n'
    · subst hline
      rw [List.cons_append, read_newLine, read_newLine]
      rfl
    · rw [List.cons_append, read_quoted hline, read_quoted hline,
        read_append u _ cs (h.of_closed (isClosed_quoted c cs)), push_followedBy]
  | false, c :: cs, h => by
    rw [List.cons_append]
    rcases char_cases c with rfl | hend | rfl | hplain
    · rw [read_newLine, read_newLine]
      rfl
    · rw [read_end hend, read_end hend]
      rfl
    · cases cs with
      | nil =>
        -- a caret protects no line break, just as it protects nothing at the end
        rcases h with rfl | ⟨-, hclosed⟩
        · rw [List.nil_append, read_caret_newLine, read_caret_nil]
          rfl
        · cases hclosed
      | cons e es =>
        by_cases hline : e = '\n'
        · subst hline
          rw [List.cons_append, read_caret_newLine, read_caret_newLine]
          rfl
        · rw [List.cons_append, read_caret hline, read_caret hline,
            read_append u _ es (h.of_closed (isClosed_caret e es)), pushEscaped_followedBy]
    · have hclosed := isClosed_own (ne_caret_of_isPlain hplain) cs
      rw [read_plain hplain, read_plain hplain, read_append u _ cs (h.of_closed hclosed),
        push_followedBy]

/-! ## The text of a word -/

/-- A word holds no line break. -/
theorem not_mem_value (quoted : Bool) (t : Text) : char '\n' ∉ (read quoted t).value := by
  fun_induction read quoted t with
  | case3 c cs hline ih =>
    rw [push, List.mem_cons, not_or]
    exact ⟨Ne.symm hline, ih⟩
  | case7 quoted _ d ds hline _ _ ih =>
    rw [pushEscaped, List.mem_cons, not_or]
    exact ⟨Ne.symm hline, ih⟩
  | case8 quoted c cs hline _ _ _ ih =>
    rw [push, List.mem_cons, not_or]
    exact ⟨Ne.symm hline, ih⟩
  | _ => exact List.not_mem_nil

/-! ## Words that stand for themselves -/

/-- Whether a quote is open behind a text. -/
def isOpen (quoted : Bool) (t : Text) : Bool :=
  t.foldl (fun quoted c => quoted != (c == char '"')) quoted

theorem isOpen_cons (quoted : Bool) (c : CodePoint) (cs : Text) :
    isOpen quoted (c :: cs) = isOpen (quoted != (c == '"')) cs := rfl

theorem isOpen_append (quoted : Bool) (t u : Text) :
    isOpen quoted (t ++ u) = isOpen (isOpen quoted t) u :=
  List.foldl_append

/-- A quote is open behind an odd number of quotes. -/
theorem isOpen_eq (t : Text) :
    ∀ quoted : Bool, isOpen quoted t = (quoted != (t.count (char '"') % 2 == 1)) := by
  induction t with
  | nil => intro quoted; cases quoted <;> rfl
  | cons c cs ih =>
    intro quoted
    rw [isOpen_cons, ih]
    by_cases hc : c = '"'
    · have hparity : ((cs.count (char '"') + 1) % 2 == 1) = !(cs.count (char '"') % 2 == 1) := by
        rcases Nat.mod_two_eq_zero_or_one (cs.count (char '"')) with h | h
        · have h' : (cs.count (char '"') + 1) % 2 = 1 := by omega
          rw [h, h']
          rfl
        · have h' : (cs.count (char '"') + 1) % 2 = 0 := by omega
          rw [h, h']
          rfl
      rw [hc, List.count_cons_self, hparity]
      cases quoted <;> cases (cs.count (char '"') % 2 == 1) <;> rfl
    · have hne : (c == '"') = false := by simpa using hc
      rw [List.count_cons_of_ne hc, hne]
      cases quoted <;> rfl

/-- Whether a character stands for itself: inside of quotes all but a line break do, outside of them
the plain characters. -/
def isOwn (quoted : Bool) (c : CodePoint) : Bool :=
  if quoted then c != '\n' else isPlain c

/-- A character that stands for itself belongs to the word. -/
theorem read_own {quoted : Bool} {c : CodePoint} (hc : isOwn quoted c = true) (cs : Text) :
    read quoted (c :: cs) = push c (read (quoted != (c == '"')) cs) := by
  cases quoted with
  | true =>
    have hstep : (true != (c == '"')) = (c != '"') := by simp [bne]
    rw [hstep, read_quoted (by simpa [isOwn] using hc)]
  | false =>
    have hstep : (false != (c == '"')) = (c == '"') := by simp
    rw [hstep, read_plain (by simpa [isOwn] using hc)]

/-- Whether a text is a word that stands for itself. -/
def isVerbatim : (quoted : Bool) → Text → Bool
  | _, [] => true
  | quoted, c :: cs => isOwn quoted c && isVerbatim (quoted != (c == '"')) cs

theorem not_mem_of_isVerbatim {w : Text} : ∀ {quoted : Bool}, isVerbatim quoted w = true →
    char '\n' ∉ w := by
  induction w with
  | nil => intro quoted _; exact List.not_mem_nil
  | cons c cs ih =>
    intro quoted hw
    rw [isVerbatim, Bool.and_eq_true] at hw
    rw [List.mem_cons, not_or]
    refine ⟨?_, ih hw.2⟩
    rintro rfl
    cases quoted <;> cases hw.1

/-- A word that stands for itself is read as itself. If it leaves a quote open, nothing may follow
it. -/
theorem read_append_of_isVerbatim {w : Text} : ∀ {quoted : Bool}, isVerbatim quoted w = true →
    ∀ {tail : Text}, Text.BehindPiece tail → (isOpen quoted w = true → tail = []) →
      read quoted (w ++ tail) = ⟨w, w, tail⟩ := by
  induction w with
  | nil =>
    intro quoted _ tail htail hopen
    rcases htail.cases with rfl | ⟨u, rfl⟩
    · exact read_nil quoted
    · cases quoted with
      | true => cases hopen rfl
      | false => exact read_end (by decide) u
  | cons c cs ih =>
    intro quoted hw tail htail hopen
    rw [isVerbatim, Bool.and_eq_true] at hw
    rw [List.cons_append, read_own hw.1, ih hw.2 htail hopen]
    rfl

/-- Every caret of a text stands inside quotes. -/
def CaretsQuoted (quoted : Bool) (t : Text) : Prop :=
  ∀ before after, t = before ++ char '^' :: after → isOpen quoted before = true

theorem CaretsQuoted.of_append {quoted : Bool} {t u : Text} (h : CaretsQuoted quoted (t ++ u)) :
    CaretsQuoted (isOpen quoted t) u := by
  intro before after hu
  rw [← isOpen_append]
  exact h (t ++ before) after (by rw [hu, List.append_assoc])

theorem CaretsQuoted.of_cons {quoted : Bool} {c : CodePoint} {cs : Text}
    (h : CaretsQuoted quoted (c :: cs)) : CaretsQuoted (quoted != (c == '"')) cs :=
  CaretsQuoted.of_append (t := [c]) h

/-- Where all carets stand inside quotes a word stands for itself, and a quote left open is left
open up to the end of the line. -/
theorem read_of_caretsQuoted {t : Text} : ∀ {quoted : Bool}, CaretsQuoted quoted t → char '\n' ∉ t →
    (read quoted t).raw = (read quoted t).value ∧
      isVerbatim quoted (read quoted t).value = true ∧
      (isOpen quoted (read quoted t).value = true → (read quoted t).rest = []) := by
  induction t with
  | nil =>
    intro quoted _ _
    rw [read_nil]
    exact ⟨rfl, rfl, fun _ => rfl⟩
  | cons c cs ih =>
    intro quoted hcarets hline
    rw [List.mem_cons, not_or] at hline
    -- no caret is left to be read, so a character is the word's own or ends it
    have hcase : isOwn quoted c = true ∨ (quoted = false ∧ isEnd c = true) := by
      cases quoted with
      | true => exact Or.inl (by simpa [isOwn] using Ne.symm hline.1)
      | false =>
        rcases char_cases c with rfl | hend | rfl | hplain
        · exact absurd rfl hline.1
        · exact Or.inr ⟨rfl, hend⟩
        · cases hcarets [] cs rfl
        · exact Or.inl hplain
    rcases hcase with hown | ⟨rfl, hend⟩
    · obtain ⟨hraw, hverbatim, hopen⟩ := ih hcarets.of_cons hline.2
      rw [read_own hown, push]
      refine ⟨by rw [hraw], ?_, hopen⟩
      rw [isVerbatim, hown, hverbatim]
      rfl
    · rw [read_end hend]
      exact ⟨rfl, rfl, fun h => by cases h⟩

end Word

end Token

end BatchScript
