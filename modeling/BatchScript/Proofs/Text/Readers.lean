import Mathlib.Data.List.Basic
import BatchScript.Text.Basic

/-!
# Readers

A reader takes a value off the front of a text and leaves what follows. Written forms are made of a
few parts: fixed texts, texts up to a mark, and values one after another, with gaps between them or
without. Each part has a reader here, which takes back what has been written.

> `Reads.bind`: what is read in turn is read from the texts one after another;
> `reads_closed`: values one after another are read back up to the mark behind them;
> `reads_members_cons`: members in brackets are read back, with the gaps around them.
-/

namespace BatchScript

namespace Text

/-- A value from the front of a text, and what follows it. -/
abbrev Reader : Type → Type :=
  StateT Text Option

/-- Whether a reader takes a value off a text, whatever follows the text. -/
def Reads {α : Type} (read : Reader α) (a : α) (t : Text) : Prop :=
  ∀ rest, read (t ++ rest) = some (a, rest)

section

variable {α β : Type} {read : Reader α} {a : α} {t u : Text}

theorem Reads.pure (a : α) : Reads (pure a) a [] :=
  fun _ => rfl

/-- Two readers in turn read the two texts in turn. -/
theorem Reads.bind {next : α → Reader β} {b : β} (h : Reads read a t) (hnext : Reads (next a) b u) :
    Reads (read >>= next) b (t ++ u) := by
  intro rest
  show (read (t ++ u ++ rest)).bind _ = _
  rw [List.append_assoc, h]
  exact hnext rest

theorem Reads.map (f : α → β) (h : Reads read a t) : Reads (f <$> read) (f a) t := by
  intro rest
  show (read (t ++ rest)).bind _ = _
  rw [h]
  rfl

/-- What the first of two readers reads, both together read. -/
theorem Reads.orElse_left (second : Reader α) (h : Reads read a t) :
    Reads (read <|> second) a t := by
  intro rest
  show (read (t ++ rest) <|> second (t ++ rest)) = _
  rw [h]
  rfl

/-- What the second of two readers reads, both together read where the first one fails. -/
theorem Reads.orElse_right {first : Reader α} (hfirst : ∀ rest, first (t ++ rest) = none)
    (h : Reads read a t) : Reads (first <|> read) a t := by
  intro rest
  show (first (t ++ rest) <|> read (t ++ rest)) = _
  rw [hfirst]
  exact h rest

end

/-- What is read whatever follows is read at the end of a text. -/
theorem Reads.of_text {α : Type} {read : Reader α} {a : α} {t : Text} (h : Reads read a t) :
    (read t).map (·.1) = some a := by
  have hend := h []
  rw [List.append_nil] at hend
  rw [hend]
  rfl

/-- A reader that finds nothing at the end of a text reads from no empty text. -/
theorem Reads.ne_nil {α : Type} {read : Reader α} {a : α} {t : Text} (h : Reads read a t)
    (hend : read [] = none) : t ≠ [] := by
  rintro rfl
  have hread := h []
  rw [List.append_nil, hend] at hread
  cases hread

/-- Items that are read back one by one are read back together. -/
theorem mapM_map_eq_some {α β : Type} {write : α → β} {read : β → Option α} {as : List α}
    (h : ∀ a ∈ as, read (write a) = some a) : (as.map write).mapM read = some as := by
  induction as with
  | nil => rfl
  | cons a as ih =>
    rw [List.map_cons, List.mapM_cons, h a List.mem_cons_self,
      ih fun b hb => h b (List.mem_cons_of_mem a hb)]
    rfl

/-! ## Fixed texts -/

/-- Takes a fixed text. -/
def expect (front : Text) : Reader Unit := fun t =>
  (t.dropPrefix? front).map fun rest => ((), rest)

theorem reads_expect (front : Text) : Reads (expect front) () front := by
  intro rest
  rw [expect, List.dropPrefix?_append_of_beq rest (beq_self_eq_true front)]
  rfl

/-- A fixed text is not where another character stands in its first place. -/
theorem expect_of_ne {c d : CodePoint} (h : d ≠ c) (front t : Text) :
    expect (c :: front) (d :: t) = none := by
  rw [expect, List.dropPrefix?, if_neg (by simpa using h)]
  rfl

/-- The text up to a mark, which is taken too. -/
def readUntil (mark : CodePoint) : Reader Text := fun t =>
  match t.dropWhile (· != mark) with
  | [] => none
  | _ :: rest => some (t.takeWhile (· != mark), rest)

/-- A text without the mark is read up to the mark. -/
theorem reads_until {mark : CodePoint} {t : Text} (h : mark ∉ t) :
    Reads (readUntil mark) t (t ++ [mark]) := by
  intro rest
  have hall : ∀ c ∈ t, (c != mark) = true := by
    intro c hc
    rw [bne_iff_ne]
    rintro rfl
    exact h hc
  have hmark : (mark != mark) = false := bne_self_eq_false mark
  rw [List.append_assoc, List.singleton_append, readUntil, List.takeWhile_append_of_pos hall,
    List.dropWhile_append_of_pos hall, List.takeWhile_cons, List.dropWhile_cons, hmark]
  simp

/-! ## Values one after another -/

/-- As many values as there are at the front of a text. -/
def readMany {α : Type} (read : Reader α) (t : Text) : List α × Text :=
  match read t with
  | none => ([], t)
  | some (a, rest) =>
    if _h : rest.length < t.length then (a :: (readMany read rest).1, (readMany read rest).2)
    else ([], t)
  termination_by t.length

section

variable {α : Type} {read : Reader α}

theorem readMany_of_none {t : Text} (h : read t = none) : readMany read t = ([], t) := by
  rw [readMany, h]

theorem readMany_of_some {t rest : Text} {a : α} (h : read t = some (a, rest))
    (hlt : rest.length < t.length) :
    readMany read t = (a :: (readMany read rest).1, (readMany read rest).2) := by
  rw [readMany, h]
  exact dif_pos hlt

/-- Values that are written one after another are read back as far as they go. `Next` says what may
follow a value. -/
theorem readMany_flatMap {write : α → Text} (Next : Text → Prop) {rest : Text} (hrest : Next rest)
    (hstop : read rest = none) : ∀ {as : List α}, (∀ a ∈ as, ∀ t, Next (write a ++ t)) →
      (∀ a ∈ as, ∀ t, Next t → read (write a ++ t) = some (a, t)) →
      readMany read (as.flatMap write ++ rest) = (as, rest)
  | [], _, _ => readMany_of_none hstop
  | a :: as, hnext, hread => by
    have hlater : readMany read (as.flatMap write ++ rest) = (as, rest) :=
      readMany_flatMap Next hrest hstop (fun b hb => hnext b (List.mem_cons_of_mem a hb))
        fun b hb => hread b (List.mem_cons_of_mem a hb)
    have hbehind : Next (as.flatMap write ++ rest) := by
      cases as with
      | nil => exact hrest
      | cons b bs =>
        rw [List.flatMap_cons, List.append_assoc]
        exact hnext b (by simp) _
    -- A value without a text would be read where none is.
    have hne : write a ≠ [] := fun h => by
      have hread := hread a List.mem_cons_self rest hrest
      rw [h, List.nil_append, hstop] at hread
      cases hread
    have hpos := List.length_pos_iff.2 hne
    rw [List.flatMap_cons, List.append_assoc,
      readMany_of_some (hread a List.mem_cons_self _ hbehind) (by simp [hpos]), hlater]

/-- The values up to a closing mark. -/
def readClosed {α : Type} (read : Reader α) : Reader (List α) := fun t =>
  match readMany read t with
  | (_, []) => none
  | (as, _ :: rest) => some (as, rest)

/-- Values up to a mark that starts no value are read back. -/
theorem reads_closed {write : α → Text} {mark : CodePoint} (hmark : ∀ t, read (mark :: t) = none)
    (hread : ∀ a, Reads read a (write a)) (as : List α) :
    Reads (readClosed read) as (as.flatMap write ++ [mark]) := by
  intro rest
  have hmany : readMany read (as.flatMap write ++ mark :: rest) = (as, mark :: rest) :=
    readMany_flatMap (fun _ => True) trivial (hmark rest) (fun _ _ _ => trivial)
      fun a _ t _ => hread a t
  rw [List.append_assoc, List.singleton_append, readClosed, hmany]

end

/-! ## Characters between marks -/

/-- A character between marks: itself, or what the escape behind a backslash stands for; none at the
mark. -/
def readMarked (mark : CodePoint) (readEscape : Reader CodePoint) : Reader CodePoint := fun t =>
  match t with
  | [] => none
  | c :: t => if c = mark then none else if c = '\\' then readEscape t else some (c, t)

section

variable {mark : CodePoint} {readEscape : Reader CodePoint}

theorem readMarked_mark (t : Text) : readMarked mark readEscape (mark :: t) = none :=
  if_pos rfl

theorem readMarked_escape (hmark : mark ≠ '\\') (t : Text) :
    readMarked mark readEscape (char '\\' :: t) = readEscape t := by
  rw [readMarked, if_neg hmark.symm, if_pos rfl]

/-- A character that is neither the mark nor a backslash is read as itself. -/
theorem reads_marked_self {c : CodePoint} (hmark : c ≠ mark) (hescape : c ≠ '\\') :
    Reads (readMarked mark readEscape) c [c] := by
  intro rest
  rw [List.singleton_append, readMarked, if_neg hmark, if_neg hescape]

end

/-! ## Members in brackets -/

/-- A character that parts members. -/
def isGap (c : CodePoint) : Bool :=
  c == ',' || c == '\n' || c == ' '

/-- A value behind a gap. -/
def readMember {α : Type} (read : Reader α) : Reader α := fun t =>
  read (t.dropWhile isGap)

/-- The members behind an opening bracket, up to the closing one. -/
def readMembers {α : Type} (read : Reader α) : Reader (List α) := fun t =>
  match readMany (readMember read) t with
  | (as, t) => ((t.dropWhile isGap).tail?).map fun rest => (as, rest)

/-- Whether a code point is a decimal digit of ASCII. -/
def isNumeral (c : CodePoint) : Bool :=
  (c.char?.map Char.isDigit).getD false

/-- Whether a text starts with a decimal digit of ASCII. -/
def startsWithDigit : Text → Bool
  | [] => false
  | c :: _ => isNumeral c

/-- A gap between texts stands in front of each of them but the first. -/
theorem intercalate_cons_eq_flatMap (gap t : Text) (ts : List Text) :
    gap.intercalate (t :: ts) = t ++ ts.flatMap (gap ++ ·) := by
  induction ts generalizing t with
  | nil => simp
  | cons u us ih =>
    rw [List.intercalate_cons_cons, ih, List.flatMap_cons]
    simp only [List.append_assoc]

section

variable {α : Type} {read : Reader α} {write : α → Text} {close : CodePoint} {gap t : Text}

theorem isNumeral_of_isGap {c : CodePoint} (h : isGap c = true) : isNumeral c = false := by
  simp only [isGap, Bool.or_eq_true, beq_iff_eq] at h
  rcases h with (rfl | rfl) | rfl <;> rfl

/-- Gaps in front are dropped with those behind them. -/
theorem dropWhile_isGap_append (hgap : ∀ c ∈ gap, isGap c = true) :
    (gap ++ t).dropWhile isGap = t.dropWhile isGap :=
  List.dropWhile_append_of_pos hgap

/-- What is read where a value may stand starts with no gap. -/
theorem dropWhile_isGap_of_read (hnone : ∀ c t, isGap c = true → read (c :: t) = none)
    {r : α × Text} (h : read t = some r) : t.dropWhile isGap = t := by
  cases t with
  | nil => rfl
  | cons c cs =>
    refine List.dropWhile_cons_of_neg fun hc => ?_
    rw [hnone c cs hc] at h
    cases h

/-- How a reader of members has to behave apart from the members: it finds nothing at a gap and
nothing at the closing bracket. -/
structure Stops (read : Reader α) (close : CodePoint) : Prop where
  atGap : ∀ c t, isGap c = true → read (c :: t) = none
  atClose : ∀ t, read (close :: t) = none
  notGap : isGap close = false
  notDigit : isNumeral close = false

theorem Stops.dropWhile_isGap (h : Stops read close) (t : Text) :
    (close :: t).dropWhile isGap = close :: t :=
  List.dropWhile_cons_of_neg (by simp [h.notGap])

/-- A closing bracket at once is read as no members. -/
theorem reads_members_nil (h : Stops read close) : Reads (readMembers read) [] [close] := by
  intro rest
  have hnone : readMember read (close :: rest) = none := by
    rw [readMember, h.dropWhile_isGap, h.atClose]
  rw [readMembers, List.singleton_append, readMany_of_none hnone]
  simp only [h.dropWhile_isGap, List.tail?_cons, Option.map_some]

/-- The members of a bracket are read back, with gaps around them. -/
theorem reads_members_cons (first between last : Text) {a : α} {as : List α} (h : Stops read close)
    (hfirst : ∀ c ∈ first, isGap c = true) (hbetween : ∀ c ∈ between, isGap c = true)
    (hlast : ∀ c ∈ last, isGap c = true)
    (hread : ∀ b ∈ a :: as, ∀ t, startsWithDigit t = false → read (write b ++ t) = some (b, t)) :
    Reads (readMembers read) (a :: as)
      (first ++ (char ',' :: between).intercalate ((a :: as).map write) ++ last ++ [close]) := by
  intro rest
  have hmember : ∀ gap : Text, (∀ c ∈ gap, isGap c = true) → ∀ b ∈ a :: as, ∀ t,
      startsWithDigit t = false → readMember read (gap ++ write b ++ t) = some (b, t) := by
    intro gap hgap b hb t ht
    have hb := hread b hb t ht
    rw [readMember, List.append_assoc, dropWhile_isGap_append hgap,
      dropWhile_isGap_of_read h.atGap hb, hb]
  have hcomma : ∀ c ∈ char ',' :: between, isGap c = true := by
    simpa [isGap] using hbetween
  have hend : readMember read (last ++ close :: rest) = none := by
    rw [readMember, dropWhile_isGap_append hlast, h.dropWhile_isGap, h.atClose]
  have hrest : startsWithDigit (last ++ close :: rest) = false := by
    cases last with
    | nil => exact h.notDigit
    | cons c cs => exact isNumeral_of_isGap (hlast c List.mem_cons_self)
  have hothers : readMany (readMember read)
      (as.flatMap (fun b => char ',' :: between ++ write b) ++ (last ++ close :: rest)) =
        (as, last ++ close :: rest) :=
    readMany_flatMap (startsWithDigit · = false) hrest hend (fun _ _ _ => rfl)
      fun b hb => hmember _ hcomma b (List.mem_cons_of_mem a hb)
  have hnext : startsWithDigit (as.flatMap (fun b => char ',' :: between ++ write b) ++
      (last ++ close :: rest)) = false := by
    cases as with
    | nil => exact hrest
    | cons b bs => rfl
  have htext :
      first ++ (char ',' :: between).intercalate ((a :: as).map write) ++ last ++ [close] ++ rest =
        first ++ write a ++ (as.flatMap (fun b => char ',' :: between ++ write b) ++
        (last ++ close :: rest)) := by
    rw [List.map_cons, intercalate_cons_eq_flatMap, List.flatMap_map]
    simp only [List.append_assoc, List.singleton_append]
  have hfront := hmember first hfirst a List.mem_cons_self _ hnext
  -- A member without a text would be read at the closing bracket.
  have hne : write a ≠ [] := fun hnil => by
    have hclose := hread a List.mem_cons_self (close :: rest) h.notDigit
    rw [hnil, List.nil_append, h.atClose] at hclose
    cases hclose
  have hpos := List.length_pos_iff.2 hne
  rw [htext, readMembers, readMany_of_some hfront ?_, hothers]
  · simp only [dropWhile_isGap_append hlast, h.dropWhile_isGap, List.tail?_cons, Option.map_some]
  · simp only [List.length_append, List.length_cons]
    omega

end

end Text

end BatchScript
