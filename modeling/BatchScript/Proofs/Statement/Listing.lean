import BatchScript.Proofs.Statement.Known
import BatchScript.Proofs.Text.Lines
import BatchScript.Proofs.Text.Quoted
import BatchScript.Statement.Listing

/-!
# Listings read back

A listing is a name and fields between parentheses. The name says which fields follow, every text in
them is quoted, and a token stays between its own parentheses, so nothing in a word can pass for
another field. A listing stays on one line, also where a token holds a line break.

> `PlacedToken.reads_listing`, `Statement.reads_listing`: a listing is read back;
> `PlacedToken.newline_not_mem_listing`, `Statement.newline_not_mem_listing`: it stays on one line.
-/

namespace BatchScript

open Text (Reader Reads expect)

/-! ## Parts of listings -/

namespace Listing

/-- The comma between fields. -/
def comma : Text :=
  [',', ' ']

/-- A flag. -/
def readFlag : Reader Bool :=
  (fun _ => true) <$> expect "True".text <|> (fun _ => false) <$> expect "False".text

/-- A sequence of texts. -/
def readSequence : Reader (List Text) := do
  expect ['(']
  Text.readMembers Text.readQuoted

/-- A named field. -/
def readField {α : Type} (name : String) (read : Reader α) : Reader α := do
  expect (name.text ++ [char '='])
  read

theorem reads_flag (b : Bool) : Reads readFlag b (flag b) := by
  cases b with
  | false =>
    exact .orElse_right (fun _ => rfl) ((Text.reads_expect "False".text).map fun _ => false)
  | true => exact .orElse_left _ ((Text.reads_expect "True".text).map fun _ => true)

/-- A text between marks is found neither at a gap nor at the end of a sequence. -/
theorem stops_quoted : Text.Stops Text.readQuoted ')' where
  atGap c t h := by
    simp only [Text.isGap, Bool.or_eq_true, beq_iff_eq] at h
    rcases h with (rfl | rfl) | rfl <;> rfl
  atClose _ := rfl
  notGap := rfl
  notDigit := rfl

/-- A sequence is read back; only one text has a comma behind it. -/
theorem reads_sequence (ts : List Text) : Reads readSequence ts (sequence ts) := by
  cases ts with
  | nil => exact .bind (Text.reads_expect ['(']) (Text.reads_members_nil stops_quoted)
  | cons t ts =>
    have hread : ∀ u ∈ t :: ts, ∀ rest, Text.startsWithDigit rest = false →
        Text.readQuoted (Text.quoted u ++ rest) = some (u, rest) :=
      fun u _ rest _ => Text.reads_quoted u rest
    -- a gap may be empty, as in front of the closing bracket
    have hnothing : ∀ c ∈ ([] : Text), Text.isGap c = true := List.forall_mem_nil _
    have hspace : ∀ c ∈ [char ' '], Text.isGap c = true := List.forall_mem_singleton.2 rfl
    have hcomma : ∀ c ∈ [char ','], Text.isGap c = true := List.forall_mem_singleton.2 rfl
    cases ts with
    | nil =>
      have hone := Text.reads_members_cons [] [' '] [','] stops_quoted hnothing hspace hcomma hread
      rw [List.map_singleton, List.intercalate_singleton] at hone
      have hsequence : Reads readSequence [t] ([char '('] ++ _) :=
        .bind (Text.reads_expect ['(']) hone
      simpa [sequence] using hsequence
    | cons u ts =>
      have hmany := Text.reads_members_cons [] [' '] [] stops_quoted hnothing hspace hnothing hread
      rw [List.append_nil] at hmany
      have hsequence : Reads readSequence (t :: u :: ts) ([char '('] ++ _) :=
        .bind (Text.reads_expect ['(']) hmany
      simpa [sequence] using hsequence

theorem reads_field {α : Type} {read : Reader α} {a : α} {t : Text} (name : String)
    (h : Reads read a t) : Reads (readField name read) a (field name t) := by
  have hread : Reads (readField name read) a ((name.text ++ [char '=']) ++ t) :=
    .bind (Text.reads_expect _) h
  rwa [List.append_assoc] at hread

/-- Fields of which the first is read before the others. -/
theorem reads_fields_cons {α β : Type} {read : Reader α} {next : α → Reader β} {a : α} {b : β}
    {f g : Text} {fields : List Text} (h : Reads read a f)
    (hnext : Reads (next a) b (comma.intercalate (g :: fields))) :
    Reads (do let a ← read; expect comma; next a) b (comma.intercalate (f :: g :: fields)) := by
  rw [List.intercalate_cons_cons, List.append_assoc]
  exact .bind h (.bind (Text.reads_expect comma) hnext)

/-- The last field is read with no comma behind it. -/
theorem reads_fields_last {α β : Type} {read : Reader α} {a : α} {f : Text} (make : α → β)
    (h : Reads read a f) : Reads (make <$> read) (make a) (comma.intercalate [f]) := by
  rw [List.intercalate_singleton]
  exact h.map make

end Listing

open Listing

/-! ## Redirections -/

namespace Redirection

/-- The kind with a given name in capitals. -/
def Kind.ofCapitalName (n : Text) : Kind :=
  (all.find? (·.capitalName == n)).getD .overwrite

/-- A redirection, told by the name of its kind in capitals. -/
def readListing : Reader Redirection := do
  expect "Redirection(kind=<RedirectionKind.".text
  let kind ← Text.readUntil ':'
  expect [' ']
  let _ ← Text.readQuoted
  expect ">, target=".text
  let target ← Text.readQuoted
  (fun _ => ⟨.ofCapitalName kind, target⟩) <$> expect [')']

/-- A redirection that may be missing. -/
def readOptional : Reader (Option Redirection) :=
  (fun _ => none) <$> expect "None".text <|> some <$> readListing

theorem reads_listing (r : Redirection) : Reads readListing r r.listing := by
  have hcolon : char ':' ∉ r.kind.capitalName := by cases r.kind <;> decide
  have hkind : Kind.ofCapitalName r.kind.capitalName = r.kind := by cases r.kind <;> decide
  have hread : Reads readListing ⟨.ofCapitalName r.kind.capitalName, r.target⟩
      ("Redirection(kind=<RedirectionKind.".text ++
        ((r.kind.capitalName ++ [char ':']) ++ ([char ' '] ++
          (Text.quoted r.kind.name ++ (">, target=".text ++
            (Text.quoted r.target ++ [char ')'])))))) :=
    .bind (Text.reads_expect _) (.bind (Text.reads_until hcolon) (.bind (Text.reads_expect _)
      (.bind (Text.reads_quoted r.kind.name) (.bind (Text.reads_expect _)
        (.bind (Text.reads_quoted r.target) ((Text.reads_expect [')']).map _))))))
  -- the colon ends the name, and the blank behind it is read apart
  have hgap : ": ".text = [char ':'] ++ [char ' '] := rfl
  rw [hkind] at hread
  unfold listing
  rw [hgap]
  simpa only [List.append_assoc] using hread

theorem reads_optional (r : Option Redirection) :
    Reads readOptional r (Log.showRedirection r) := by
  cases r with
  | none => exact .orElse_left _ ((Text.reads_expect "None".text).map fun _ => none)
  | some r => exact .orElse_right (fun _ => rfl) (r.reads_listing.map some)

end Redirection

/-! ## Tokens -/

namespace PlacedToken

/-- The line of a token, with a flag that has been read before it. -/
def readLine (invisible : Bool) : Reader (Bool × Int) := do
  expect comma
  (invisible, ·) <$> Text.readIntUntil ':'

/-- Whether a token is hidden, and its line. -/
def readHiddenAndLine : Reader (Bool × Int) :=
  (do expect ", invisible".text; readLine true) <|> readLine false

/-- A placed token. -/
def readListing : Reader PlacedToken := do
  expect "PositionedToken(".text
  let kind ← Text.readUntil ','
  expect [' ']
  let value ← Text.readQuoted
  let (invisible, line) ← readHiddenAndLine
  (fun column => ⟨⟨.ofName kind, value⟩, invisible, line, column⟩) <$> Text.readIntUntil ')'

theorem reads_line (invisible : Bool) (line : Int) :
    Reads (readLine invisible) (invisible, line) (comma ++ (Text.ofInt line ++ [char ':'])) :=
  .bind (Text.reads_expect comma) ((Text.reads_intUntil rfl line).map _)

/-- The flag of a token and its line are read off what shows them. -/
theorem reads_hiddenAndLine (invisible : Bool) (line : Int) :
    Reads readHiddenAndLine (invisible, line)
      ((if invisible then ", invisible".text else []) ++
        (comma ++ (Text.ofInt line ++ [char ':']))) := by
  cases invisible with
  | true => exact .orElse_left _ (.bind (Text.reads_expect _) (reads_line true line))
  | false =>
    refine .orElse_right (fun rest => ?_) (reads_line false line)
    -- behind the comma stands a digit or a sign
    obtain ⟨c, cs, hcons, hc⟩ := Text.ofInt_eq_cons line
    have hne : c ≠ 'i' := by
      rintro rfl
      exact absurd hc (by decide)
    have hnone : expect ", invisible".text (comma ++ (Text.ofInt line ++ [char ':']) ++ rest) =
        none := by
      rw [hcons]
      exact Text.expect_of_ne hne "nvisible".text (cs ++ [char ':'] ++ rest)
    show (expect ", invisible".text (comma ++ (Text.ofInt line ++ [char ':']) ++ rest)).bind _ = _
    rw [hnone]
    rfl

/-- A token of a known kind is read back. -/
theorem reads_listing {t : PlacedToken} (h : t.kind ∈ Token.Kind.known) :
    Reads readListing t t.listing := by
  have hname : ∀ k ∈ Token.Kind.known, char ',' ∉ k.name := by decide
  have hread : Reads readListing ⟨⟨.ofName t.kind.name, t.value⟩, t.invisible, t.line, t.column⟩
      ("PositionedToken(".text ++ ((t.kind.name ++ [char ',']) ++ ([char ' '] ++
        (Text.quoted t.value ++ (((if t.invisible then ", invisible".text else []) ++
          (comma ++ (Text.ofInt t.line ++ [char ':']))) ++
            (Text.ofInt t.column ++ [char ')'])))))) :=
    .bind (Text.reads_expect _) (.bind (Text.reads_until (hname t.kind h)) (.bind
      (Text.reads_expect _) (.bind (Text.reads_quoted t.value) (.bind
        (reads_hiddenAndLine t.invisible t.line) ((Text.reads_intUntil rfl t.column).map _)))))
  -- the comma behind the kind ends it, and the blank behind that comma is read apart
  have hgap : ", ".text = [char ','] ++ [char ' '] := rfl
  have hcomma : comma = [char ','] ++ [char ' '] := rfl
  have hplace : t.place = Text.ofInt t.line ++ ([char ':'] ++ Text.ofInt t.column) := rfl
  rw [Token.Kind.ofName_name h] at hread
  unfold listing
  rw [hplace, hgap]
  simpa only [hcomma, List.append_assoc] using hread

end PlacedToken

/-! ## Statements -/

namespace Statement

/-- The fields of a statement that prints. -/
def readPrint (make : List Text → Bool → Option Redirection → Statement) : Reader Statement := do
  let words ← readField "value" readSequence
  expect comma
  let invisible ← readField "invisible" readFlag
  expect comma
  make words invisible <$> readField "redirection" Redirection.readOptional

/-- The fields of an exit. -/
def readExitFields : Reader Statement := do
  let words ← readField "value" readSequence
  expect comma
  .exit words <$> readField "invisible" readFlag

/-- The fields of a jump. -/
def readGotoFields : Reader Statement := do
  let target ← readField "label" Text.readQuoted
  expect comma
  .goto target <$> readField "invisible" readFlag

/-- The fields of an assignment. -/
def readSetFields : Reader Statement := do
  let name ← readField "variable" readSequence
  expect comma
  let value ← readField "value" Text.readQuoted
  expect comma
  .set name value <$> readField "invisible" readFlag

/-- One field that is a text. -/
def readTextField (name : String) (make : Text → Statement) : Reader Statement :=
  make <$> readField name Text.readQuoted

/-- The names of the sorts of statements in listings, with what reads their fields. -/
def listingSorts : List (Text × Reader Statement) :=
  [("Echo".text, readPrint .echo), ("EchoNewLine".text, readPrint .echoLine),
    ("Exit".text, readExitFields), ("Goto".text, readGotoFields),
    ("Label".text, readTextField "label" .label), ("Rem".text, readTextField "text" .rem),
    ("Set".text, readSetFields)] ++
  Redirection.Kind.all.map (fun kind => (kind.fileName,
    readTextField "target" fun target => .redirect ⟨kind, target⟩)) ++
  [("AmpersandOnlyIfSuccess".text, pure .andIfSuccess), ("AmpersandAlways".text, pure .andAlways),
    ("NewLine".text, pure .newLine), ("Identifier".text, readTextField "text" .command),
    ("Unknown".text, .unknown <$> readField "token" PlacedToken.readListing)]

/-- A statement. -/
def readListing : Reader Statement := do
  let name ← Text.readUntil '('
  match listingSorts.lookup name with
  | none => failure
  | some read => do
    let s ← read
    (fun _ => s) <$> expect [')']

/-- A listing is read by its name. -/
theorem reads_call {name : Text} {read : Reader Statement} {s : Statement} {fields : List Text}
    (hname : char '(' ∉ name) (hsort : listingSorts.lookup name = some read)
    (h : Reads read s (comma.intercalate fields)) : Reads readListing s (call name fields) := by
  have hread : Reads readListing s
      ((name ++ [char '(']) ++ (comma.intercalate fields ++ [char ')'])) := by
    refine .bind (Text.reads_until hname) ?_
    rw [hsort]
    exact .bind h ((Text.reads_expect [')']).map fun _ => s)
  simpa [call, comma] using hread

/-- A statement that prints is read off its fields. -/
theorem reads_print (make : List Text → Bool → Option Redirection → Statement) (words : List Text)
    (invisible : Bool) (redirection : Option Redirection) :
    Reads (readPrint make) (make words invisible redirection)
      (comma.intercalate [field "value" (sequence words), field "invisible" (flag invisible),
        field "redirection" (Log.showRedirection redirection)]) :=
  reads_fields_cons (reads_field _ (reads_sequence words))
    (reads_fields_cons (reads_field _ (reads_flag invisible))
      (reads_fields_last _ (reads_field _ (Redirection.reads_optional redirection))))

/-- A statement with one text is read off its field. -/
theorem reads_textField (name : String) (make : Text → Statement) (t : Text) :
    Reads (readTextField name make) (make t) (comma.intercalate [field name (Text.quoted t)]) :=
  reads_fields_last make (reads_field name (Text.reads_quoted t))

/-- A statement is read back from its listing. -/
theorem reads_listing {s : Statement} (h : s.Known) : Reads readListing s s.listing := by
  cases s with
  | echo words invisible redirection =>
    exact reads_call (by decide) rfl (reads_print .echo words invisible redirection)
  | echoLine words invisible redirection =>
    exact reads_call (by decide) rfl (reads_print .echoLine words invisible redirection)
  | exit words invisible =>
    exact reads_call (by decide) rfl (reads_fields_cons (reads_field _ (reads_sequence words))
      (reads_fields_last _ (reads_field _ (reads_flag invisible))))
  | goto target invisible =>
    exact reads_call (by decide) rfl (reads_fields_cons (reads_field _ (Text.reads_quoted target))
      (reads_fields_last _ (reads_field _ (reads_flag invisible))))
  | label name => exact reads_call (by decide) rfl (reads_textField _ .label name)
  | rem text => exact reads_call (by decide) rfl (reads_textField _ .rem text)
  | set name value invisible =>
    exact reads_call (by decide) rfl (reads_fields_cons (reads_field _ (reads_sequence name))
      (reads_fields_cons (reads_field _ (Text.reads_quoted value))
        (reads_fields_last _ (reads_field _ (reads_flag invisible)))))
  | redirect r =>
    obtain ⟨kind, target⟩ := r
    have hname : char '(' ∉ kind.fileName := by cases kind <;> decide
    have hread := reads_textField "target" (fun target => .redirect ⟨kind, target⟩) target
    exact reads_call hname (by cases kind <;> rfl) hread
  | andIfSuccess => exact reads_call (by decide) rfl (Reads.pure _)
  | andAlways => exact reads_call (by decide) rfl (Reads.pure _)
  | newLine => exact reads_call (by decide) rfl (Reads.pure _)
  | command text => exact reads_call (by decide) rfl (reads_textField _ .command text)
  | unknown token =>
    exact reads_call (by decide) rfl
      (reads_fields_last _ (reads_field _ (PlacedToken.reads_listing (h token rfl))))

end Statement

/-! ## One line -/

namespace Listing

/-- A field is shown on one line if its name and its value are. -/
theorem newline_not_mem_field {name : String} {value : Text} (hname : char '\n' ∉ name.text)
    (hvalue : char '\n' ∉ value) : char '\n' ∉ field name value := by
  simp [field, hname, hvalue]

/-- A listing stays on one line where its fields do. -/
theorem newline_not_mem_call {name : Text} {fields : List Text} (hname : char '\n' ∉ name)
    (hfields : ∀ f ∈ fields, char '\n' ∉ f) : char '\n' ∉ call name fields := by
  have hjoined : char '\n' ∉ comma.intercalate fields := by
    cases fields with
    | nil => exact List.not_mem_nil
    | cons f fields =>
      rw [Text.intercalate_cons_eq_flatMap, List.mem_append, List.mem_flatMap]
      rintro (h | ⟨g, hg, h⟩)
      · exact hfields f List.mem_cons_self h
      · rcases List.mem_append.1 h with h | h
        · exact absurd h (by decide)
        · exact hfields g (List.mem_cons_of_mem f hg) h
  have hcall : call name fields = name ++ char '(' :: comma.intercalate fields ++ [char ')'] := rfl
  simp [hcall, hname, hjoined]

@[simp]
theorem newline_not_mem_flag (b : Bool) : char '\n' ∉ flag b := by
  cases b <;> decide

@[simp]
theorem newline_not_mem_sequence (ts : List Text) : char '\n' ∉ sequence ts := by
  unfold sequence
  split
  · simp
  · exact newline_not_mem_call List.not_mem_nil (by simp)

end Listing

theorem Redirection.newline_not_mem_listing (r : Redirection) : char '\n' ∉ r.listing := by
  have hkind : char '\n' ∉ r.kind.capitalName := by cases r.kind <;> decide
  unfold listing
  simp [hkind]

@[simp]
theorem Redirection.newline_not_mem_optional (r : Option Redirection) :
    char '\n' ∉ Log.showRedirection r := by
  cases r with
  | none => decide
  | some r => exact r.newline_not_mem_listing

/-- The listing of a token of a known kind stays on one line. -/
theorem PlacedToken.newline_not_mem_listing {t : PlacedToken} (h : t.kind ∈ Token.Kind.known) :
    char '\n' ∉ t.listing := by
  have hkind : ∀ k ∈ Token.Kind.known, char '\n' ∉ k.name := by decide
  have hnumber : ∀ n, char '\n' ∉ Text.ofInt n := Text.not_mem_ofInt rfl (by decide)
  unfold listing place showPlace
  cases t.invisible <;> simp [hkind t.kind h, hnumber]

/-- The listing of a statement stays on one line. -/
theorem Statement.newline_not_mem_listing {s : Statement} (h : s.Known) :
    char '\n' ∉ s.listing := by
  cases s with
  | redirect r =>
    have hname : char '\n' ∉ r.kind.fileName := by cases r.kind <;> decide
    exact newline_not_mem_call hname (by simp [newline_not_mem_field])
  | unknown token =>
    have htoken := PlacedToken.newline_not_mem_listing (h token rfl)
    exact newline_not_mem_call (by decide) (by simp [newline_not_mem_field, htoken])
  | _ => exact newline_not_mem_call (by decide) (by simp [newline_not_mem_field])

/-! ## Several lines -/

/-- Whether a text lists items one to a line, in order; the text is empty when there are none. -/
def Text.ListsByLine {α : Type} (write : α → Text) (as : List α) (t : Text) : Prop :=
  (t = [] ↔ as = []) ∧ (as ≠ [] → t.splitOn (char '\n') = as.map write)

/-- The items that a text lists one to a line. -/
def Text.readLines {α : Type} (read : Reader α) (t : Text) : Option (List α) :=
  if t = [] then some [] else (t.splitOn (char '\n')).mapM fun line => (read line).map (·.1)

section

variable {α : Type} {read : Reader α} {write : α → Text} {as : List α}
  (hread : ∀ a ∈ as, Reads read a (write a))

include hread

/-- Items that stay on one line each are listed one to a line. -/
theorem Text.listsByLine_joinLines (hend : read [] = none) (hline : ∀ a ∈ as, char '\n' ∉ write a) :
    ListsByLine write as (joinLines (as.map write)) := by
  constructor
  · cases as with
    | nil => exact ⟨fun _ => rfl, fun _ => rfl⟩
    | cons a as =>
      have ha : joinLines ((a :: as).map write) ≠ [] := by
        rw [joinLines, List.map_cons, intercalate_cons_eq_flatMap]
        exact List.append_ne_nil_of_left_ne_nil ((hread a List.mem_cons_self).ne_nil hend) _
      exact ⟨fun h => absurd h ha, fun h => absurd h (List.cons_ne_nil a as)⟩
  · intro has
    refine List.splitOn_intercalate (char '\n') ?_ (by simpa using has)
    intro l hl
    obtain ⟨a, ha, rfl⟩ := List.mem_map.1 hl
    exact hline a ha

/-- Items listed one to a line are read back. -/
theorem Text.readLines_eq_some {t : Text} (h : ListsByLine write as t) :
    readLines read t = some as := by
  obtain ⟨hnil, hlines⟩ := h
  by_cases has : as = []
  · rw [readLines, if_pos (hnil.2 has), has]
  · rw [readLines, if_neg (mt hnil.1 has), hlines has]
    exact mapM_map_eq_some fun a ha => (hread a ha).of_text

end

/-- Tokens of known kinds are listed one to a line and read back. -/
theorem PlacedToken.listsByLine {ts : List PlacedToken} (h : ∀ t ∈ ts, t.kind ∈ Token.Kind.known) :
    Text.ListsByLine listing ts (Text.joinLines (ts.map listing)) ∧
      Text.readLines readListing (Text.joinLines (ts.map listing)) = some ts := by
  have hread : ∀ t ∈ ts, Reads readListing t t.listing := fun t ht => reads_listing (h t ht)
  have hlists := Text.listsByLine_joinLines hread rfl fun t ht => newline_not_mem_listing (h t ht)
  exact ⟨hlists, Text.readLines_eq_some hread hlists⟩

/-- Statements are listed one to a line and read back. -/
theorem Statement.listsByLine {ss : List Statement} (h : ∀ s ∈ ss, s.Known) :
    Text.ListsByLine listing ss (Text.joinLines (ss.map listing)) ∧
      Text.readLines readListing (Text.joinLines (ss.map listing)) = some ss := by
  have hread : ∀ s ∈ ss, Reads readListing s s.listing := fun s hs => reads_listing (h s hs)
  have hlists := Text.listsByLine_joinLines hread rfl fun s hs => newline_not_mem_listing (h s hs)
  exact ⟨hlists, Text.readLines_eq_some hread hlists⟩

end BatchScript
