import BatchScript.Statement.Listing
import BatchScript.Statement.Record

/-!
# Items

What a caller may hand in where statements are expected: statements, nodes of no particular sort,
and things that are no nodes of a script at all.
-/

namespace BatchScript

/-- A statement, or what stands in the place of one. -/
inductive Item where
  | statement (s : Statement)
  /-- A node of no particular sort. -/
  | bare
  /-- A redirection without a command whose operator is not known. -/
  | bareRedirection (target : Text)
  /-- Something that is no node of a script. -/
  | foreign
  deriving DecidableEq, Repr

namespace Item

/-- Whether the item is a node of a script. -/
def isNode : Item → Bool
  | .foreign => false
  | _ => true

/-- The name of the sort of node, which is the general one where there is no other. -/
def kindName : Item → Text
  | .statement s => s.kindName
  | _ => "statement".text

/-- How listings show an item. Something foreign is not shown. -/
def listing : Item → Text
  | .statement s => s.listing
  | .bare => Listing.call "Statement".text []
  | .bareRedirection target =>
    Listing.call "StandaloneRedirection".text [Listing.field "target" (Text.quoted target)]
  | .foreign => []

/-- The record of an item. Something foreign has none. -/
def record : Item → Json
  | .statement s => s.record
  | .bare => Json.record bare.kindName []
  | .bareRedirection target =>
    Json.record (bareRedirection target).kindName [("target", .text target)]
  | .foreign => .null

end Item

end BatchScript
