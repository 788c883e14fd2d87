import BatchScript.Json
import BatchScript.Proofs.Text.Numbers
import BatchScript.Proofs.Text.Surrogates

/-!
# JSON read back

A written value is told by its first character. The reader passes over indentation without looking
at its depth, and it goes as many levels deep as it is told to; the length of the text is deep
enough.

A text is written by its units of sixteen bits, so two surrogates that make a character and this
character are written alike. The reader takes them for the character.

> `reads_text`: a text is read back with its pairs joined;
> `read_write`: so is a value from its indented form.
-/

namespace BatchScript

namespace Json

open Text (Reader Reads expect startsWithDigit isGap Stops)

/-! ## Texts -/

/-- A unit of sixteen bits with its escape. -/
def readUnit : Reader Nat := do
  expect ['\\', 'u']
  Text.readHex 4

/-- The code point of one unit of sixteen bits, or of two units when they make a pair. -/
def readUnits : Reader CodePoint := do
  let unit ← Text.readHex 4
  fun t =>
    match readUnit t with
    | none => some (.ofNat unit, t)
    | some (second, rest) =>
      match CodePoint.pair? (.ofNat unit) (.ofNat second) with
      | none => some (.ofNat unit, t)
      | some c => some (c, rest)

/-- The code point that an escape stands for, behind its backslash. -/
def readEscape : Reader CodePoint := fun t =>
  match t with
  | [] => none
  | 'n' :: t => some ('\n', t)
  | 'r' :: t => some ('\r', t)
  | 't' :: t => some ('\t', t)
  | 'b' :: t => some ('\u0008', t)
  | 'f' :: t => some ('\u000c', t)
  | 'u' :: t => readUnits t
  | c :: t => some (c, t)

/-- One code point of a text; none at the closing quote. -/
def readChar : Reader CodePoint :=
  Text.readMarked '"' readEscape

/-- A text between double quotes. -/
def readText : Reader Text := do
  expect ['"']
  Text.readClosed readChar

/-- A unit is read off its escape. -/
theorem reads_unit {n : Nat} (h : n < 16 ^ 4) : Reads readUnit n (unitEscape n) :=
  Reads.bind (Text.reads_expect ['\\', 'u']) (Text.reads_hex h)

/-- No unit stands at a character that is no backslash. -/
theorem readUnit_of_ne {c : CodePoint} (h : c ≠ '\\') (t : Text) : readUnit (c :: t) = none := by
  show (expect ['\\', 'u'] (c :: t)).bind _ = none
  rw [Text.expect_of_ne h]
  rfl

/-- A code point past the graphic characters of ASCII is written by its units. -/
theorem escapeChar_of_lt {c : CodePoint} (h : 0x7E < c.toNat) : escapeChar c =
    if c.toNat < 0x10000 then unitEscape c.toNat
    else unitEscape (0xD800 + (c.toNat - 0x10000) / 0x400) ++
      unitEscape (0xDC00 + (c.toNat - 0x10000) % 0x400) := by
  have hne : ∀ d : CodePoint, d.toNat ≤ 0x7E → c ≠ d := by
    rintro d hd rfl
    omega
  have hgraphic : ¬(0x20 ≤ c.toNat ∧ c.toNat ≤ 0x7E) := by omega
  rw [escapeChar, if_neg (not_or.2 ⟨hne '"' (by decide), hne '\\' (by decide)⟩),
    if_neg (hne '\n' (by decide)), if_neg (hne '\r' (by decide)), if_neg (hne '\t' (by decide)),
    if_neg (hne '\u0008' (by decide)), if_neg (hne '\u000c' (by decide)), if_neg hgraphic]

/-- The units of a character above the basic plane are those of the pair that it joins. -/
theorem escapeChar_of_pair {c d e : CodePoint} (h : CodePoint.pair? c d = some e) :
    escapeChar e = escapeChar c ++ escapeChar d := by
  obtain ⟨habove, hfirst, hsecond⟩ := CodePoint.pair?_eq_some_iff.1 h
  have hbound := e.toNat_lt
  rw [escapeChar_of_lt (c := e) (by omega), if_neg (by omega), escapeChar_of_lt (c := c) (by omega),
    if_pos (by omega), escapeChar_of_lt (c := d) (by omega), if_pos (by omega), hfirst, hsecond]

theorem escapeChar_ne_nil (c : CodePoint) : escapeChar c ≠ [] := by
  unfold escapeChar
  split_ifs <;> simp [unitEscape]

/-- Whether no unit at the front of a text makes a pair with the code point before it. -/
def Apart (c : CodePoint) (t : Text) : Prop :=
  ∀ second rest, readUnit t = some (second, rest) → CodePoint.pair? c (.ofNat second) = none

/-- A code point stands apart from a text with no unit in front. -/
theorem apart_of_none {c : CodePoint} {t : Text} (h : readUnit t = none) : Apart c t := by
  intro second rest hunit
  rw [h] at hunit
  cases hunit

/-- Code points that make no pair stand apart when they are written. -/
theorem apart_escapeChar {c d : CodePoint} (h : CodePoint.pair? c d = none) (t : Text) :
    Apart c (escapeChar d ++ t) := by
  unfold escapeChar
  split_ifs with hself hline hreturn htab hback hfeed hgraphic hbasic
  · rcases hself with rfl | rfl <;> exact apart_of_none rfl
  · exact apart_of_none rfl
  · exact apart_of_none rfl
  · exact apart_of_none rfl
  · exact apart_of_none rfl
  · exact apart_of_none rfl
  · exact apart_of_none (readUnit_of_ne (not_or.1 hself).2 t)
  · intro second rest hunit
    rw [reads_unit (by omega)] at hunit
    cases hunit
    rwa [CodePoint.ofNat_toNat]
  · -- the first unit of a character is of the wrong half to end a pair
    intro second rest hunit
    have hbound := d.toNat_lt
    rw [List.append_assoc, reads_unit (by omega)] at hunit
    cases hunit
    rw [Option.eq_none_iff_forall_ne_some]
    intro e he
    obtain ⟨-, -, hsecond⟩ := CodePoint.pair?_eq_some_iff.1 he
    rw [CodePoint.toNat_ofNat (by omega)] at hsecond
    omega

/-- A unit is read as its code point where no second one makes a pair with it. -/
theorem readUnits_of_apart {c : CodePoint} {t : Text} (hc : c.toNat < 16 ^ 4) (h : Apart c t) :
    readUnits (Text.hex 4 c.toNat ++ t) = some (c, t) := by
  show (Text.readHex 4 (Text.hex 4 c.toNat ++ t)).bind _ = _
  rw [Text.reads_hex hc t]
  show (match readUnit t with | none => _ | some (second, rest) => _) = _
  rw [CodePoint.ofNat_toNat]
  split
  · rfl
  · -- a unit follows that makes no pair, so it is left for the next character
    next hunit => rw [h _ _ hunit]

/-- Two units that make a pair are read as one code point. -/
theorem reads_pair {c d e : CodePoint} (h : CodePoint.pair? c d = some e) :
    Reads readUnits e (Text.hex 4 c.toNat ++ unitEscape d.toNat) := by
  obtain ⟨-, hfirst, hsecond⟩ := CodePoint.pair?_eq_some_iff.1 h
  have hbound := e.toNat_lt
  intro rest
  show (Text.readHex 4 (Text.hex 4 c.toNat ++ unitEscape d.toNat ++ rest)).bind _ = _
  rw [List.append_assoc, Text.reads_hex (by omega)]
  show (match readUnit (unitEscape d.toNat ++ rest) with
    | none => _ | some (second, rest) => _) = _
  rw [reads_unit (by omega)]
  show (match CodePoint.pair? (.ofNat c.toNat) (.ofNat d.toNat) with
    | none => _ | some c => _) = _
  rw [CodePoint.ofNat_toNat, CodePoint.ofNat_toNat, h]

/-- A code point inside a text is read back where it makes no pair with what follows. -/
theorem readChar_escapeChar {c : CodePoint} {t : Text} (h : Apart c t) :
    readChar (escapeChar c ++ t) = some (c, t) := by
  unfold escapeChar
  split_ifs with hself hline hreturn htab hback hfeed hgraphic hbasic
  · rcases hself with rfl | rfl <;> rfl
  · rw [hline]; rfl
  · rw [hreturn]; rfl
  · rw [htab]; rfl
  · rw [hback]; rfl
  · rw [hfeed]; rfl
  · rw [not_or] at hself
    exact Text.reads_marked_self hself.1 hself.2 t
  · exact readUnits_of_apart hbasic h
  · have hbound := c.toNat_lt
    have hpair : CodePoint.pair? (.ofNat (0xD800 + (c.toNat - 0x10000) / 0x400))
        (.ofNat (0xDC00 + (c.toNat - 0x10000) % 0x400)) = some c :=
      CodePoint.pair?_eq_some_iff.2 ⟨Nat.le_of_not_lt hbasic,
        CodePoint.toNat_ofNat (by omega), CodePoint.toNat_ofNat (by omega)⟩
    have hread := reads_pair hpair t
    rwa [CodePoint.toNat_ofNat (by omega), CodePoint.toNat_ofNat (by omega)] at hread

/-- The code points of a text without pairs are read back up to the closing quote. -/
theorem readMany_escaped {t : Text} (h : t.PairFree) (rest : Text) :
    Text.readMany readChar (t.flatMap escapeChar ++ char '"' :: rest) = (t, char '"' :: rest) := by
  induction t with
  | nil => exact Text.readMany_of_none (Text.readMarked_mark rest)
  | cons c t ih =>
    obtain ⟨hnext, hlater⟩ := List.isChain_cons.1 h
    have hapart : Apart c (t.flatMap escapeChar ++ char '"' :: rest) := by
      cases t with
      | nil => exact apart_of_none rfl
      | cons d t =>
        rw [List.flatMap_cons, List.append_assoc]
        exact apart_escapeChar (hnext d rfl) _
    have hread := readChar_escapeChar hapart
    have hlength : (t.flatMap escapeChar ++ char '"' :: rest).length <
        (escapeChar c ++ (t.flatMap escapeChar ++ char '"' :: rest)).length := by
      have hpos := List.length_pos_iff.2 (escapeChar_ne_nil c)
      simp only [List.length_append]
      omega
    rw [List.flatMap_cons, List.append_assoc, Text.readMany_of_some hread hlength, ih hlater]

/-- A text is read back with its pairs joined, whatever follows it. -/
theorem reads_text (t : Text) : Reads readText t.joined (writeText t) := by
  have hbody : Reads (Text.readClosed readChar) t.joined (t.flatMap escapeChar ++ [char '"']) := by
    intro rest
    rw [← Text.flatMap_joined (fun _ _ _ => escapeChar_of_pair) t, List.append_assoc,
      List.singleton_append, Text.readClosed, readMany_escaped t.pairFree_joined]
  show Reads readText t.joined ([char '"'] ++ (t.flatMap escapeChar ++ [char '"']))
  exact Reads.bind (Text.reads_expect ['"']) hbody

/-! ## Blocks -/

theorem isGap_of_mem_newLine {depth : Nat} {c : CodePoint} (h : c ∈ newLine depth) :
    isGap c = true := by
  rcases List.mem_cons.1 h with rfl | h
  · rfl
  · rw [List.eq_of_mem_replicate h]
    rfl

section

variable {α : Type} {read : Reader α} {write : α → Text} (depth : Nat) (left right : CodePoint)

/-- The members of a block are read back behind its opening bracket. -/
theorem reads_block (h : Stops read right) {as : List α}
    (hread : ∀ a ∈ as, ∀ t, startsWithDigit t = false → read (write a ++ t) = some (a, t)) :
    ∃ body, block depth left right (as.map write) = left :: body ∧
      Reads (Text.readMembers read) as body := by
  cases as with
  | nil => exact ⟨[right], rfl, Text.reads_members_nil h⟩
  | cons a as =>
    have hgap : ∀ {depth : Nat} (c), c ∈ newLine depth → isGap c = true :=
      fun _ => isGap_of_mem_newLine
    exact ⟨_, rfl, Text.reads_members_cons _ _ _ h hgap hgap hgap hread⟩

/-- A member is shorter than the block it stands in. -/
theorem length_lt_block {member : Text} {members : List Text} (h : member ∈ members) :
    member.length < (block depth left right members).length := by
  obtain ⟨before, behind, rfl⟩ := List.append_of_mem h
  cases before with
  | nil =>
    rw [List.nil_append, block, Text.intercalate_cons_eq_flatMap]
    · simp only [List.length_cons, List.length_append]
      omega
    · exact List.cons_ne_nil _ _
  | cons first before =>
    rw [List.cons_append, block, Text.intercalate_cons_eq_flatMap]
    · simp only [List.length_cons, List.length_append, List.flatMap_append, List.flatMap_cons]
      omega
    · exact List.cons_ne_nil _ _

end

/-! ## Values -/

/-- A field of an object. -/
def readField (read : Reader Json) : Reader (Text × Json) := do
  let key ← readText
  expect [':', ' ']
  let value ← read
  return (key, value)

/-- A value that goes less than so many levels deep. -/
def readValue : (levels : Nat) → Reader Json
  | 0 => fun _ => none
  | levels + 1 => fun t =>
    match t with
    | [] => none
    | '[' :: t => (Json.list <$> Text.readMembers (readValue levels)) t
    | '\x7b' :: t => (Json.object <$> Text.readMembers (readField (readValue levels))) t
    | '"' :: _ => (Json.text <$> readText) t
    | 'n' :: _ => ((fun _ => Json.null) <$> expect "null".text) t
    | 't' :: _ => ((fun _ => Json.bool true) <$> expect "true".text) t
    | 'f' :: _ => ((fun _ => Json.bool false) <$> expect "false".text) t
    | _ => (Json.int <$> Text.readInt) t

/-- The value that a whole text stands for. -/
def read (t : Text) : Option Json :=
  (readValue (t.length + 1) t).map (·.1)

mutual

/-- A value with the pairs in its texts joined. -/
def joined : Json → Json
  | .null => .null
  | .bool b => .bool b
  | .int n => .int n
  | .text t => .text t.joined
  | .list items => .list (joinedItems items)
  | .object fields => .object (joinedFields fields)

/-- The items of a list with the pairs in their texts joined. -/
def joinedItems : List Json → List Json
  | [] => []
  | item :: items => joined item :: joinedItems items

/-- The fields of an object with the pairs in their texts joined. -/
def joinedFields : List (Text × Json) → List (Text × Json)
  | [] => []
  | (key, value) :: fields => (key.joined, joined value) :: joinedFields fields

end

/-- A text is written as the text with its pairs joined is. -/
theorem writeText_joined (t : Text) : writeText t.joined = writeText t := by
  rw [writeText, Text.flatMap_joined fun _ _ _ => escapeChar_of_pair, writeText]

mutual

/-- Joining the pairs in a value does not show in its text. -/
theorem writeAt_joined (depth : Nat) : ∀ j : Json, writeAt depth j.joined = writeAt depth j
  | .null | .bool _ | .int _ => rfl
  | .text t => writeText_joined t
  | .list items => by
    rw [joined, writeAt, writeAt, writeItems_joined (depth + 1) items]
  | .object fields => by
    rw [joined, writeAt, writeAt, writeFields_joined (depth + 1) fields]

theorem writeItems_joined (depth : Nat) :
    ∀ items : List Json, writeItems depth (joinedItems items) = writeItems depth items
  | [] => rfl
  | item :: items => by
    rw [joinedItems, writeItems, writeItems, writeAt_joined depth item,
      writeItems_joined depth items]

theorem writeFields_joined (depth : Nat) :
    ∀ fields : List (Text × Json),
      writeFields depth (joinedFields fields) = writeFields depth fields
  | [] => rfl
  | (key, value) :: fields => by
    rw [joinedFields, writeFields, writeFields, writeText_joined, writeAt_joined depth value,
      writeFields_joined depth fields]

end

theorem joinedItems_eq_map (items : List Json) : joinedItems items = items.map joined := by
  induction items with
  | nil => rfl
  | cons item items ih => rw [joinedItems, ih, List.map_cons]

/-- A field of an object with the pairs in its texts joined. -/
def joinedField (field : Text × Json) : Text × Json :=
  (field.1.joined, field.2.joined)

theorem joinedFields_eq_map (fields : List (Text × Json)) :
    joinedFields fields = fields.map joinedField := by
  induction fields with
  | nil => rfl
  | cons field fields ih => rw [joinedFields, ih, List.map_cons, joinedField]

theorem writeItems_eq_map (depth : Nat) (items : List Json) :
    writeItems depth items = items.map (writeAt depth) := by
  induction items with
  | nil => rfl
  | cons item items ih => rw [writeItems, ih, List.map_cons]

/-- A field of an object in its indented form. -/
def writeField (depth : Nat) (field : Text × Json) : Text :=
  writeText field.1 ++ char ':' :: char ' ' :: writeAt depth field.2

theorem writeFields_eq_map (depth : Nat) (fields : List (Text × Json)) :
    writeFields depth fields = fields.map (writeField depth) := by
  induction fields with
  | nil => rfl
  | cons field fields ih => rw [writeFields, ih, List.map_cons, writeField]

/-- A field is written as the field with its pairs joined is. -/
theorem writeField_joinedField (depth : Nat) (field : Text × Json) :
    writeField depth (joinedField field) = writeField depth field := by
  rw [writeField, joinedField, writeText_joined, writeAt_joined, writeField]

/-- A field is read back if its value is, with the pairs joined. -/
theorem readField_writeField {read : Reader Json} {depth : Nat} {field : Text × Json}
    {rest : Text} (h : read (writeAt depth field.2 ++ rest) = some (field.2.joined, rest)) :
    readField read (writeField depth field ++ rest) = some (joinedField field, rest) := by
  have hcolon : expect [':', ' '] (char ':' :: char ' ' :: (writeAt depth field.2 ++ rest)) =
      some ((), writeAt depth field.2 ++ rest) := Text.reads_expect [':', ' '] _
  rw [writeField, List.append_assoc]
  show (readText (writeText field.1 ++ _)).bind _ = _
  rw [reads_text]
  show (expect [':', ' '] (char ':' :: char ' ' :: (writeAt depth field.2 ++ rest))).bind _ = _
  rw [hcolon]
  show (read (writeAt depth field.2 ++ rest)).bind _ = _
  rw [h]
  rfl

/-- A number is read where a digit or a sign stands. -/
theorem readValue_number (levels : Nat) {c : CodePoint} (h : Text.isNumeral c = true ∨ c = '-')
    (t : Text) :
    readValue (levels + 1) (c :: t) = (Json.int <$> Text.readInt) (c :: t) := by
  rw [readValue]
  dsimp only
  split
  case h_1 heq => cases heq
  case h_8 => rfl
  all_goals
    next heq =>
      cases heq
      exact absurd h (by decide)

/-- A value is found neither at a gap nor at the end of a list. -/
theorem stops_value (levels : Nat) : Stops (readValue levels) ']' where
  atGap c t h := by
    simp only [isGap, Bool.or_eq_true, beq_iff_eq] at h
    cases levels with
    | zero => rfl
    | succ levels => rcases h with (rfl | rfl) | rfl <;> rfl
  atClose t := by cases levels <;> rfl
  notGap := rfl
  notDigit := rfl

theorem stops_field (read : Reader Json) : Stops (readField read) '\x7d' where
  atGap c t h := by
    simp only [isGap, Bool.or_eq_true, beq_iff_eq] at h
    rcases h with (rfl | rfl) | rfl <;> rfl
  atClose _ := rfl
  notGap := rfl
  notDigit := rfl

/-- A value is read back with its pairs joined, whatever follows it that is no digit. -/
theorem readValue_writeAt {levels : Nat} : ∀ {j : Json} {depth : Nat} {rest : Text},
    (writeAt depth j).length < levels → startsWithDigit rest = false →
      readValue levels (writeAt depth j ++ rest) = some (j.joined, rest) := by
  -- on the levels: a member is written shorter than the block that holds it
  induction levels with
  | zero => exact fun h => absurd h (Nat.not_lt_zero _)
  | succ levels ih =>
    intro j depth rest hlevels hrest
    cases j with
    | null => exact (Text.reads_expect "null".text).map (fun _ => Json.null) rest
    | bool b =>
      cases b with
      | false => exact (Text.reads_expect "false".text).map (fun _ => Json.bool false) rest
      | true => exact (Text.reads_expect "true".text).map (fun _ => Json.bool true) rest
    | int n =>
      have hread := Text.readInt_ofInt n hrest
      obtain ⟨c, cs, hcons, hc⟩ := Text.ofInt_eq_cons n
      rw [hcons, List.cons_append] at hread
      rw [writeAt, hcons, List.cons_append, readValue_number levels hc]
      show (Text.readInt (c :: (cs ++ rest))).bind _ = _
      rw [hread]
      rfl
    | text t => exact (reads_text t).map Json.text rest
    | list items =>
      have hitems : ∀ item ∈ items.map joined, ∀ t, startsWithDigit t = false →
          readValue levels (writeAt (depth + 1) item ++ t) = some (item, t) := by
        intro written hwritten t ht
        obtain ⟨item, hitem, rfl⟩ := List.mem_map.1 hwritten
        rw [writeAt, writeItems_eq_map] at hlevels
        have hlength := length_lt_block depth '[' ']'
          (List.mem_map_of_mem (f := writeAt (depth + 1)) hitem)
        rw [writeAt_joined]
        exact ih (by omega) ht
      obtain ⟨body, hbody, hread⟩ := reads_block depth '[' ']' (stops_value levels) hitems
      rw [← writeAt_joined, joined, writeAt, writeItems_eq_map, joinedItems_eq_map, hbody,
        List.cons_append]
      exact hread.map Json.list rest
    | object fields =>
      have hfields : ∀ field ∈ fields.map joinedField, ∀ t, startsWithDigit t = false →
          readField (readValue levels) (writeField (depth + 1) field ++ t) = some (field, t) := by
        intro written hwritten t ht
        obtain ⟨field, hfield, rfl⟩ := List.mem_map.1 hwritten
        rw [writeAt, writeFields_eq_map] at hlevels
        have hlength := length_lt_block depth '\x7b' '\x7d'
          (List.mem_map_of_mem (f := writeField (depth + 1)) hfield)
        rw [writeField_joinedField]
        refine readField_writeField (ih ?_ ht)
        rw [writeField, List.length_append, List.length_cons, List.length_cons] at hlength
        omega
      obtain ⟨body, hbody, hread⟩ := reads_block depth '\x7b' '\x7d'
        (stops_field (readValue levels)) hfields
      rw [← writeAt_joined, joined, writeAt, writeFields_eq_map, joinedFields_eq_map, hbody,
        List.cons_append]
      exact hread.map Json.object rest

/-- A value is read back from its indented form with its pairs joined. -/
theorem read_write (j : Json) : read j.write = some j.joined := by
  have h : readValue (j.write.length + 1) (j.write ++ []) = some (j.joined, []) :=
    readValue_writeAt (Nat.lt_succ_self _) rfl
  rw [List.append_nil] at h
  exact congrArg (Option.map Prod.fst) h

end Json

end BatchScript
