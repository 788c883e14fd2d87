import BatchScript.Json
import BatchScript.Statement.Basic

/-!
# Records of statements

A record is a statement as a JSON object: the sort first, then the fields in order.
-/

namespace BatchScript

/-- A sequence of texts. -/
def Json.texts (ts : List Text) : Json :=
  .list (ts.map .text)

/-- A record with its sort and fields. -/
def Json.record (kind : Text) (fields : List (String × Json)) : Json :=
  .object (("kind".text, .text kind) :: fields.map fun (key, value) => (key.text, value))

/-- The record of a redirection. -/
def Redirection.record (r : Redirection) : Json :=
  Json.record r.kind.name [("target", .text r.target)]

/-- The record of a redirection that may be missing. -/
def Redirection.recordOrNull : Option Redirection → Json
  | none => .null
  | some r => r.record

/-- The record of a placed token. -/
def PlacedToken.record (t : PlacedToken) : Json :=
  .object [("type".text, .text t.kind.name), ("value".text, .text t.value),
    ("invisible".text, .bool t.invisible), ("line".text, .int t.line),
    ("col".text, .int t.column)]

/-- The fields of a statement's record after its sort. -/
def Statement.fields : Statement → List (String × Json)
  | .echo words invisible redirection | .echoLine words invisible redirection =>
    [("value", Json.texts words), ("invisible", .bool invisible),
      ("redirection", Redirection.recordOrNull redirection)]
  | .exit words invisible => [("value", Json.texts words), ("invisible", .bool invisible)]
  | .goto target invisible => [("label", .text target), ("invisible", .bool invisible)]
  | .label name => [("label", .text name)]
  | .rem text => [("text", .text text)]
  | .set name value invisible =>
    [("variable", Json.texts name), ("value", .text value), ("invisible", .bool invisible)]
  | .redirect r => [("target", .text r.target)]
  | .andIfSuccess | .andAlways | .newLine => []
  | .command text => [("text", .text text)]
  | .unknown token => [("token", token.record)]

/-- The record of a statement. -/
def Statement.record (s : Statement) : Json :=
  Json.record s.kindName s.fields

end BatchScript
