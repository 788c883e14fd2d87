import BatchScript.Proofs.Json
import BatchScript.Proofs.Statement.Known
import BatchScript.Statement.Record

/-!
# Records read back

The sort of a record says how many fields it has and what their values are; sorts share names of
fields, so a field alone says neither. An absent redirection and a present one differ in the sort of
value. The text of a record joins the pairs of surrogates in the texts of its statement.

> `Statement.ofRecord?_record`: a statement is read back from its record;
> `Script.ofJson?_write`: the statements of a script are read back, with their pairs joined, from
> the text of their records.
-/

namespace BatchScript

/-! ## Values -/

namespace Json

/-- The text that a value is. -/
def text? : Json → Option Text
  | .text t => some t
  | _ => none

/-- The flag that a value is. -/
def bool? : Json → Option Bool
  | .bool b => some b
  | _ => none

/-- The texts that the items of a list are. -/
def texts? : Json → Option (List Text)
  | .list items => items.mapM text?
  | _ => none

/-- The sort of a record and the values of its fields. -/
def sortAndValues? : Json → Option (Text × List Json)
  | .object ((_, .text kind) :: fields) => some (kind, fields.map (·.2))
  | _ => none

theorem texts?_texts (ts : List Text) : (texts ts).texts? = some ts :=
  Text.mapM_map_eq_some fun _ _ => rfl

/-- The sort of a record and its values are read back from it. -/
theorem sortAndValues?_record (kind : Text) (fields : List (String × Json)) :
    (record kind fields).sortAndValues? = some (kind, fields.map (·.2)) := by
  simp [record, sortAndValues?]

end Json

/-! ## Parts of statements -/

/-- The redirection with a given record. -/
def Redirection.ofRecord? (j : Json) : Option Redirection := do
  let (kind, values) ← j.sortAndValues?
  match values with
  | [target] => some ⟨← Redirection.Kind.ofName? kind, ← target.text?⟩
  | _ => none

/-- The redirection, present or absent, with a given record. -/
def Redirection.ofRecordOrNull? : Json → Option (Option Redirection)
  | .null => some none
  | j => (ofRecord? j).map some

/-- The placed token with a given record. -/
def PlacedToken.ofRecord? : Json → Option PlacedToken
  | .object [(_, .text kind), (_, .text value), (_, .bool invisible), (_, .int line),
      (_, .int column)] => some ⟨⟨.ofName kind, value⟩, invisible, line, column⟩
  | _ => none

theorem Redirection.ofRecord?_record (r : Redirection) : ofRecord? r.record = some r := by
  rw [ofRecord?, record, Json.sortAndValues?_record]
  show (Redirection.Kind.ofName? r.kind.name).bind _ = _
  rw [Redirection.Kind.ofName?_name]
  rfl

theorem Redirection.ofRecordOrNull?_recordOrNull (r : Option Redirection) :
    ofRecordOrNull? (recordOrNull r) = some r := by
  cases r with
  | none => rfl
  | some r => exact congrArg (Option.map some) r.ofRecord?_record

/-- A token of a known kind is read back from its record. -/
theorem PlacedToken.ofRecord?_record {t : PlacedToken} (h : t.kind ∈ Token.Kind.known) :
    ofRecord? t.record = some t := by
  rw [record, ofRecord?, Token.Kind.ofName_name h]

/-! ## Statements -/

namespace Statement

/-- A statement without fields. -/
def ofNoValues (s : Statement) : List Json → Option Statement
  | [] => some s
  | _ => none

/-- A statement with one text. -/
def ofTextValue (make : Text → Statement) : List Json → Option Statement
  | [t] => t.text?.map make
  | _ => none

/-- A statement that prints. -/
def ofPrintValues (make : List Text → Bool → Option Redirection → Statement) :
    List Json → Option Statement
  | [words, invisible, redirection] => do
    some (make (← words.texts?) (← invisible.bool?) (← Redirection.ofRecordOrNull? redirection))
  | _ => none

/-- An exit. -/
def ofExitValues : List Json → Option Statement
  | [words, invisible] => do some (.exit (← words.texts?) (← invisible.bool?))
  | _ => none

/-- A jump. -/
def ofGotoValues : List Json → Option Statement
  | [target, invisible] => do some (.goto (← target.text?) (← invisible.bool?))
  | _ => none

/-- An assignment. -/
def ofSetValues : List Json → Option Statement
  | [name, value, invisible] => do
    some (.set (← name.texts?) (← value.text?) (← invisible.bool?))
  | _ => none

/-- A token that starts no statement. -/
def ofTokenValue : List Json → Option Statement
  | [token] => (PlacedToken.ofRecord? token).map .unknown
  | _ => none

/-- The sorts of statements in records, with what makes a statement of the values of the fields. -/
def recordSorts : List (Text × (List Json → Option Statement)) :=
  [("echo".text, ofPrintValues .echo), ("echo_new_line".text, ofPrintValues .echoLine),
    ("exit".text, ofExitValues), ("goto".text, ofGotoValues),
    ("label".text, ofTextValue .label), ("rem".text, ofTextValue .rem),
    ("set".text, ofSetValues)] ++
  Redirection.Kind.all.map (fun kind => (kindName (.redirect ⟨kind, []⟩),
    ofTextValue fun target => .redirect ⟨kind, target⟩)) ++
  [("ampersand_only_if_success".text, ofNoValues .andIfSuccess),
    ("ampersand_always".text, ofNoValues .andAlways), ("new_line".text, ofNoValues .newLine),
    ("identifier".text, ofTextValue .command), ("unknown".text, ofTokenValue)]

/-- The statement with a given record. -/
def ofRecord? (j : Json) : Option Statement := do
  let (kind, values) ← j.sortAndValues?
  let make ← recordSorts.lookup kind
  make values

/-- A statement is read back from its record. -/
theorem ofRecord?_record {s : Statement} (h : s.Known) : ofRecord? s.record = some s := by
  rw [ofRecord?, record, Json.sortAndValues?_record]
  cases s with
  | echo words invisible redirection =>
    -- the name in the record picks the decoder of its sort
    show ofPrintValues .echo [_, _, _] = _
    simp only [ofPrintValues, Json.texts?_texts, Redirection.ofRecordOrNull?_recordOrNull]
    rfl
  | echoLine words invisible redirection =>
    show ofPrintValues .echoLine [_, _, _] = _
    simp only [ofPrintValues, Json.texts?_texts, Redirection.ofRecordOrNull?_recordOrNull]
    rfl
  | exit words invisible =>
    show ofExitValues [_, _] = _
    simp only [ofExitValues, Json.texts?_texts]
    rfl
  | goto target invisible => rfl
  | label name => rfl
  | rem text => rfl
  | set name value invisible =>
    show ofSetValues [_, _, _] = _
    simp only [ofSetValues, Json.texts?_texts]
    rfl
  | redirect r =>
    obtain ⟨kind, target⟩ := r
    cases kind <;> rfl
  | andIfSuccess => rfl
  | andAlways => rfl
  | newLine => rfl
  | command text => rfl
  | unknown token =>
    show (PlacedToken.ofRecord? token.record).map Statement.unknown = _
    rw [PlacedToken.ofRecord?_record (h token rfl)]
    rfl

end Statement

/-! ## Joined pairs -/

/-- A redirection with the pairs in its target joined. -/
def Redirection.joined (r : Redirection) : Redirection :=
  ⟨r.kind, r.target.joined⟩

/-- A token with the pairs in its text joined. -/
def PlacedToken.joined (t : PlacedToken) : PlacedToken :=
  { t with value := t.value.joined }

namespace Statement

/-- A statement with the pairs in its texts joined. -/
def joined : Statement → Statement
  | .echo words invisible r => .echo (words.map Text.joined) invisible (r.map Redirection.joined)
  | .echoLine words invisible r =>
    .echoLine (words.map Text.joined) invisible (r.map Redirection.joined)
  | .exit words invisible => .exit (words.map Text.joined) invisible
  | .goto target invisible => .goto target.joined invisible
  | .label name => .label name.joined
  | .rem text => .rem text.joined
  | .set name value invisible => .set (name.map Text.joined) value.joined invisible
  | .redirect r => .redirect r.joined
  | .andIfSuccess => .andIfSuccess
  | .andAlways => .andAlways
  | .newLine => .newLine
  | .command text => .command text.joined
  | .unknown token => .unknown token.joined

/-- The texts of a statement. -/
def texts : Statement → List Text
  | .echo words _ r | .echoLine words _ r => words ++ r.toList.map (·.target)
  | .exit words _ => words
  | .goto text _ | .label text | .rem text | .command text => [text]
  | .set name value _ => name ++ [value]
  | .redirect r => [r.target]
  | .andIfSuccess | .andAlways | .newLine => []
  | .unknown token => [token.value]

end Statement

/-- Texts without pairs stay as they are. -/
theorem Text.map_joined_eq_self {ts : List Text} (h : ∀ t ∈ ts, t.PairFree) :
    ts.map Text.joined = ts :=
  (List.map_congr_left fun t ht => Text.joined_eq_self_iff.2 (h t ht)).trans (List.map_id ts)

theorem Redirection.joined_eq_self {r : Redirection} (h : r.target.PairFree) : r.joined = r := by
  rw [joined, Text.joined_eq_self_iff.2 h]

theorem Redirection.map_joined_eq_self {r : Option Redirection}
    (h : ∀ t ∈ r.toList.map (·.target), t.PairFree) : r.map Redirection.joined = r := by
  cases r with
  | none => rfl
  | some r => exact congrArg some (joined_eq_self (h _ List.mem_cons_self))

theorem PlacedToken.joined_eq_self {t : PlacedToken} (h : t.value.PairFree) : t.joined = t := by
  rw [joined, Text.joined_eq_self_iff.2 h]

/-- Joining keeps a statement that has no pair in its texts. -/
theorem Statement.joined_eq_self {s : Statement} (h : ∀ t ∈ s.texts, t.PairFree) :
    s.joined = s := by
  cases s with
  | echo words invisible r | echoLine words invisible r =>
    obtain ⟨hwords, htarget⟩ := List.forall_mem_append.1 h
    rw [joined, Text.map_joined_eq_self hwords, Redirection.map_joined_eq_self htarget]
  | exit words invisible =>
    have hwords : ∀ t ∈ words, t.PairFree := h
    rw [joined, Text.map_joined_eq_self hwords]
  | goto text | label text | rem text | command text =>
    rw [joined, Text.joined_eq_self_iff.2 (h text List.mem_cons_self)]
  | set name value invisible =>
    obtain ⟨hname, hvalue⟩ := List.forall_mem_append.1 h
    rw [joined, Text.map_joined_eq_self hname,
      Text.joined_eq_self_iff.2 (hvalue value List.mem_cons_self)]
  | redirect r => rw [joined, Redirection.joined_eq_self (h _ List.mem_cons_self)]
  | andIfSuccess | andAlways | newLine => rfl
  | unknown token => rw [joined, PlacedToken.joined_eq_self (h _ List.mem_cons_self)]

/-- Statements with texts without pairs stay as they are. -/
theorem Statement.map_joined_eq_self {ss : List Statement}
    (h : ∀ s ∈ ss, ∀ t ∈ s.texts, t.PairFree) : ss.map Statement.joined = ss :=
  (List.map_congr_left fun s hs => joined_eq_self (h s hs)).trans (List.map_id ss)

namespace Json

theorem joined_texts (ts : List Text) : (texts ts).joined = texts (ts.map Text.joined) := by
  simp [texts, joined, joinedItems_eq_map, Function.comp_def]

/-- Pairs in a record are joined in its sort and in its values. -/
theorem joined_record (kind : Text) (fields : List (String × Json)) :
    (record kind fields).joined =
      record kind.joined (fields.map fun (key, value) => (key, value.joined)) := by
  simp [record, joined, joinedFields_eq_map, joinedField, Function.comp_def]

end Json

/-- The name of a known kind holds no pair. -/
theorem Token.Kind.joined_name {k : Token.Kind} (h : k ∈ known) : k.name.joined = k.name := by
  have hall : ∀ k ∈ known, k.name.joined = k.name := by decide
  exact hall k h

theorem Redirection.joined_recordOrNull (r : Option Redirection) :
    (recordOrNull r).joined = recordOrNull (r.map Redirection.joined) := by
  cases r with
  | none => rfl
  | some r =>
    obtain ⟨kind, target⟩ := r
    rw [recordOrNull, record, Json.joined_record]
    cases kind <;> rfl

namespace Statement

/-- Joining pairs keeps the kinds known. -/
theorem known_joined {s : Statement} (h : s.Known) : s.joined.Known := by
  rintro t ht
  cases s with
  | unknown token =>
    cases ht
    exact h token rfl
  | _ => cases ht

theorem kindName_joined (s : Statement) : s.joined.kindName = s.kindName.joined := by
  cases s with
  | redirect r =>
    obtain ⟨kind, target⟩ := r
    cases kind <;> rfl
  | _ => exact (Text.joined_text _).symm

/-- Joining the pairs in a record is joining those in its statement. -/
theorem joined_record {s : Statement} (h : s.Known) : s.record.joined = s.joined.record := by
  rw [record, Json.joined_record, record, kindName_joined]
  congr 1
  cases s with
  | echo | echoLine =>
    simp [fields, joined, Json.joined_texts, Redirection.joined_recordOrNull, Json.joined]
  | exit | set => simp [fields, joined, Json.joined_texts, Json.joined]
  | goto | label | rem | command | redirect => rfl
  | andIfSuccess | andAlways | newLine => rfl
  | unknown token =>
    simp [fields, joined, PlacedToken.record, Json.joined, Json.joinedFields, PlacedToken.joined,
      Token.Kind.joined_name (h token rfl)]

end Statement

/-! ## Scripts -/

/-- The statements with given records. -/
def Script.ofJson? (t : Text) : Option (List Statement) := do
  match ← Json.read t with
  | .list records => records.mapM Statement.ofRecord?
  | _ => none

/-- The records of statements with pairs joined are the joined records. -/
theorem Script.joined_records {ss : List Statement} (h : ∀ s ∈ ss, s.Known) :
    (Json.list (ss.map Statement.record)).joined =
      Json.list ((ss.map Statement.joined).map Statement.record) := by
  rw [Json.joined, Json.joinedItems_eq_map, List.map_map, List.map_map]
  exact congrArg Json.list (List.map_congr_left fun s hs => Statement.joined_record (h s hs))

/-- Statements are read back, with their pairs joined, from the text of their records. -/
theorem Script.ofJson?_write {ss : List Statement} (h : ∀ s ∈ ss, s.Known) :
    ofJson? (Json.list (ss.map Statement.record)).write = some (ss.map Statement.joined) := by
  rw [ofJson?, Json.read_write, joined_records h]
  refine Text.mapM_map_eq_some fun s' hs' => ?_
  obtain ⟨s, hs, rfl⟩ := List.mem_map.1 hs'
  exact Statement.ofRecord?_record (Statement.known_joined (h s hs))

/-- Joining the pairs in statements does not show in the text of their records. -/
theorem Script.write_joined {ss : List Statement} (h : ∀ s ∈ ss, s.Known) :
    (Json.list ((ss.map Statement.joined).map Statement.record)).write =
      (Json.list (ss.map Statement.record)).write := by
  rw [← joined_records h, Json.write, Json.writeAt_joined, Json.write]

end BatchScript
