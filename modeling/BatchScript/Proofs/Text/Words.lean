import BatchScript.Text.Basic

/-!
# Words, joined and cut

Facts about texts that say nothing about scripts: joining with plain spaces, cutting at white space,
trimming.

> `words_joinWords`: words that are joined and cut again are the same words.
-/

namespace BatchScript

namespace Text

/-! ## Joining -/

/-- Each text behind a plain space of its own. -/
def spaced (ts : List Text) : Text :=
  ts.flatMap (char ' ' :: ·)

/-- What may stand behind a piece of a line: nothing, or a plain space. -/
def BehindPiece (t : Text) : Prop :=
  ∀ c, t.head? = some c → c = ' '

theorem behindPiece_nil : BehindPiece [] :=
  fun _ h => by cases h

theorem behindPiece_space (t : Text) : BehindPiece (char ' ' :: t) :=
  fun _ h => (Option.some.inj h).symm

theorem behindPiece_spaced (ts : List Text) : BehindPiece (spaced ts) := by
  cases ts with
  | nil => exact behindPiece_nil
  | cons t ts => exact behindPiece_space (t ++ spaced ts)

/-- A text behind a piece is empty or starts with a space. -/
theorem BehindPiece.cases {t : Text} (h : BehindPiece t) : t = [] ∨ ∃ u, t = char ' ' :: u := by
  cases t with
  | nil => exact Or.inl rfl
  | cons c cs => exact Or.inr ⟨cs, by rw [h c rfl]⟩

theorem joinWords_singleton (t : Text) : joinWords [t] = t :=
  List.intercalate_singleton

theorem joinWords_cons_cons (t u : Text) (ts : List Text) :
    joinWords (t :: u :: ts) = t ++ char ' ' :: joinWords (u :: ts) := by
  simp [joinWords]

/-- Texts joined are the first one and the others behind a space each. -/
theorem joinWords_cons (t : Text) (ts : List Text) : joinWords (t :: ts) = t ++ spaced ts := by
  induction ts generalizing t with
  | nil => simp [joinWords, spaced]
  | cons u us ih =>
    rw [joinWords_cons_cons, ih]
    rfl

theorem spaced_cons (t : Text) (ts : List Text) :
    spaced (t :: ts) = char ' ' :: (t ++ spaced ts) := rfl

theorem spaced_singleton (t : Text) : spaced [t] = char ' ' :: t := by
  rw [spaced_cons]
  exact congrArg (char ' ' :: ·) (List.append_nil t)

theorem joinWords_ne_nil {t : Text} (h : t ≠ []) (ts : List Text) : joinWords (t :: ts) ≠ [] := by
  rw [joinWords_cons]
  exact fun happ => h (List.append_eq_nil_iff.1 happ).1

theorem spaced_append (ts us : List Text) : spaced (ts ++ us) = spaced ts ++ spaced us :=
  List.flatMap_append

/-- Texts behind spaces of their own are joined texts behind one space. -/
theorem spaced_eq_cons_joinWords {ts : List Text} (h : ts ≠ []) :
    spaced ts = char ' ' :: joinWords ts := by
  cases ts with
  | nil => exact absurd rfl h
  | cons t ts => rw [spaced_cons, joinWords_cons]

/-- Joining adds plain spaces and nothing else. -/
theorem mem_joinWords {ts : List Text} {c : CodePoint} (h : c ∈ joinWords ts) :
    c = ' ' ∨ ∃ t ∈ ts, c ∈ t := by
  cases ts with
  | nil => simp [joinWords] at h
  | cons t ts =>
    rw [joinWords_cons, List.mem_append] at h
    rcases h with h | h
    · exact Or.inr ⟨t, List.mem_cons_self, h⟩
    · obtain ⟨u, hu, hc⟩ := List.mem_flatMap.1 h
      rcases List.mem_cons.1 hc with hc | hc
      · exact Or.inl hc
      · exact Or.inr ⟨u, List.mem_cons_of_mem t hu, hc⟩

/-- The characters of a text are in what it is joined to. -/
theorem mem_joinWords_of_mem {ts : List Text} {t : Text} {c : CodePoint} (ht : t ∈ ts)
    (hc : c ∈ t) : c ∈ joinWords ts := by
  cases ts with
  | nil => cases ht
  | cons u us =>
    rw [joinWords_cons, List.mem_append]
    rcases List.mem_cons.1 ht with rfl | ht
    · exact Or.inl hc
    · exact Or.inr (List.mem_flatMap.2 ⟨t, ht, List.mem_cons_of_mem _ hc⟩)

/-! ## Cutting at white space -/

/-- A text that is one word: it holds something, and no white space. -/
def IsWord (t : Text) : Prop :=
  t ≠ [] ∧ ∀ c ∈ t, isSpace c = false

instance (t : Text) : Decidable t.IsWord :=
  decidable_of_iff (t ≠ [] ∧ t.all (fun c => !isSpace c) = true) (by simp [IsWord])

/-- The words of a text are its front, unless this is empty, and the words behind white space. -/
theorem words_eq (t : Text) :
    words t = if (frontAndWords t).1.isEmpty then (frontAndWords t).2
      else (frontAndWords t).1 :: (frontAndWords t).2 := rfl

/-- White space ends the word in front of it. -/
theorem frontAndWords_space {w : Text} (hw : ∀ c ∈ w, isSpace c = false) {s : CodePoint}
    (hs : isSpace s = true) (t : Text) : frontAndWords (w ++ s :: t) = (w, words t) := by
  induction w with
  | nil => simp [frontAndWords, hs, words_eq]
  | cons c cs ih =>
    rw [List.cons_append, frontAndWords, ih fun d hd => hw d (List.mem_cons_of_mem c hd)]
    simp [hw c List.mem_cons_self]

theorem frontAndWords_word {w : Text} (hw : ∀ c ∈ w, isSpace c = false) :
    frontAndWords w = (w, []) := by
  induction w with
  | nil => rfl
  | cons c cs ih =>
    rw [frontAndWords, ih fun d hd => hw d (List.mem_cons_of_mem c hd)]
    simp [hw c List.mem_cons_self]

/-- Words that are joined and cut again are the same words. -/
theorem words_joinWords {ts : List Text} (h : ∀ t ∈ ts, IsWord t) : words (joinWords ts) = ts := by
  induction ts with
  | nil => rfl
  | cons t ts ih =>
    obtain ⟨hne, hspace⟩ := h t List.mem_cons_self
    cases ts with
    | nil =>
      rw [joinWords_singleton, words_eq, frontAndWords_word hspace]
      simp [hne]
    | cons u us =>
      have hplain : isSpace ' ' = true := by decide
      rw [joinWords_cons_cons, words_eq, frontAndWords_space hspace hplain,
        ih fun v hv => h v (List.mem_cons_of_mem t hv)]
      simp [hne]

/-- The front and the words behind it are made of the characters of a text, without its white
space. -/
theorem mem_frontAndWords (t : Text) :
    (∀ c ∈ (frontAndWords t).1, isSpace c = false ∧ c ∈ t) ∧
      ∀ w ∈ (frontAndWords t).2, IsWord w ∧ ∀ c ∈ w, c ∈ t := by
  induction t with
  | nil => simp [frontAndWords]
  | cons d ds ih =>
    obtain ⟨hfront, hrest⟩ := ih
    have hrest' : ∀ w ∈ (frontAndWords ds).2, IsWord w ∧ ∀ c ∈ w, c ∈ d :: ds := by
      intro w hw
      obtain ⟨hword, hmem⟩ := hrest w hw
      exact ⟨hword, fun c hc => List.mem_cons_of_mem d (hmem c hc)⟩
    rw [frontAndWords]
    cases hd : isSpace d with
    | false =>
      -- the character joins the front
      refine ⟨fun c hc => ?_, hrest'⟩
      rcases List.mem_cons.1 hc with rfl | hc
      · exact ⟨hd, List.mem_cons_self⟩
      · exact ⟨(hfront c hc).1, List.mem_cons_of_mem d (hfront c hc).2⟩
    | true =>
      -- white space ends the front, which is one more word if it holds anything
      have hnone : ∀ c ∈ ([] : Text), isSpace c = false ∧ c ∈ d :: ds := by simp
      refine ⟨hnone, fun w hw => ?_⟩
      simp only [if_true] at hw
      split at hw
      · exact hrest' w hw
      · next hne =>
        rcases List.mem_cons.1 hw with rfl | hw
        · have hword : IsWord (frontAndWords ds).1 :=
            ⟨fun h => hne (by rw [h]; rfl), fun c hc => (hfront c hc).1⟩
          exact ⟨hword, fun c hc => List.mem_cons_of_mem d (hfront c hc).2⟩
        · exact hrest' w hw

/-- What is cut from a text are words, made of its characters. -/
theorem mem_words {t w : Text} (hw : w ∈ words t) : IsWord w ∧ ∀ c ∈ w, c ∈ t := by
  obtain ⟨hfront, hrest⟩ := mem_frontAndWords t
  rw [words_eq] at hw
  split at hw
  · exact hrest w hw
  · next hne =>
    rcases List.mem_cons.1 hw with rfl | hw
    · have hword : IsWord (frontAndWords t).1 :=
        ⟨fun h => hne (by rw [h]; rfl), fun c hc => (hfront c hc).1⟩
      exact ⟨hword, fun c hc => (hfront c hc).2⟩
    · exact hrest w hw

/-! ## Trimming -/

theorem mem_trim {t : Text} {c : CodePoint} (h : c ∈ trim t) : c ∈ t := by
  rw [trim, trimRight, List.mem_reverse] at h
  have h' := (List.dropWhile_suffix isSpace).subset h
  rw [List.mem_reverse] at h'
  exact (List.dropWhile_suffix isSpace).subset h'

theorem dropWhile_eq_self {t : Text} (h : ∀ c, t.head? = some c → isSpace c = false) :
    t.dropWhile isSpace = t := by
  cases t with
  | nil => rfl
  | cons c cs => simp [h c rfl]

/-- A text with no white space at its ends is not changed by trimming. -/
theorem trim_eq_self {t : Text} (hfirst : ∀ c, t.head? = some c → isSpace c = false)
    (hlast : ∀ c, t.getLast? = some c → isSpace c = false) : trim t = t := by
  have hback : t.reverse.dropWhile isSpace = t.reverse := by
    apply dropWhile_eq_self
    intro c hc
    rw [List.head?_reverse] at hc
    exact hlast c hc
  rw [trim, dropWhile_eq_self hfirst, trimRight, hback, List.reverse_reverse]

/-- What is left behind white space starts with none. -/
theorem isSpace_head?_dropWhile {t : Text} {c : CodePoint}
    (h : (t.dropWhile isSpace).head? = some c) : isSpace c = false := by
  have hnot := List.head?_dropWhile_not isSpace t
  rw [h] at hnot
  exact hnot

/-- Trimming leaves no white space at the end. -/
theorem getLast?_trim {t : Text} {c : CodePoint} (h : (trim t).getLast? = some c) :
    isSpace c = false := by
  rw [trim, trimRight, List.getLast?_reverse] at h
  exact isSpace_head?_dropWhile h

/-- Trimming leaves no white space at the front. -/
theorem head?_trim {t : Text} {c : CodePoint} (h : (trim t).head? = some c) :
    isSpace c = false := by
  have hprefix : trim t <+: t.dropWhile isSpace := by
    rw [trim, trimRight, ← List.reverse_suffix, List.reverse_reverse]
    exact List.dropWhile_suffix isSpace
  obtain ⟨back, hback⟩ := hprefix
  have hfirst : (t.dropWhile isSpace).head? = some c := by
    rw [← hback, List.head?_append, h]
    rfl
  exact isSpace_head?_dropWhile hfirst

end Text

end BatchScript
