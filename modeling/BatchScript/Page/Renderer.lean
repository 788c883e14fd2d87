import BatchScript.Page.Basic
import BatchScript.Statement.Item
import BatchScript.Text.Lowercase
import BatchScript.Text.Quoted

/-!
# Rendering batches

Batches of items are written in turn on one page, for a named flavour of script. Nothing is written
of a batch that holds something foreign. A batch with nodes of no particular sort is written up to
the first of them.
-/

namespace BatchScript

/-- The flavours of script text. Both are written alike. -/
inductive Flavour where
  | bat
  | cmd
  deriving DecidableEq, Repr

namespace Flavour

/-- The name of a flavour. -/
def name : Flavour → Text
  | .bat => "bat".text
  | .cmd => "cmd".text

/-- A name, in lowercase, that belongs to no flavour. -/
structure Unknown where
  name : Text

/-- The wording of an unknown flavour. -/
def Unknown.message (u : Unknown) : Text :=
  "Unknown transpilation target: ".text ++ Text.quoted u.name

/-- The flavour with a given name in letters of either case. -/
def ofName (n : Text) : Except Unknown Flavour :=
  match [Flavour.bat, .cmd].find? (·.name == Text.lower n) with
  | some f => .ok f
  | none => .error ⟨Text.lower n⟩

end Flavour

namespace Page

/-- Why a batch is not written to its end. -/
inductive Fault where
  | notANode
  | noParticularSort
  deriving DecidableEq, Repr

/-- The wording of a fault. -/
def Fault.message : Fault → String
  | .notANode => "All items in AST must be Statement instances."
  | .noParticularSort => "No emitter method for statement kind 'statement'"

/-- The page with the statements at the front of a batch, and the fault that ended them. -/
def addItems (p : Page) : List Item → Option Fault × Page
  | [] => (none, p)
  | .statement s :: items => (p.add s).addItems items
  | _ :: _ => (some .noParticularSort, p)

/-- The text of the page with one more batch on it, and the page itself, which also holds what was
written before a fault. -/
def render (p : Page) (batch : List Item) : Except Fault Text × Page :=
  if batch.all Item.isNode then
    match p.addItems batch with
    | (none, p) => (.ok p.text, p)
    | (some fault, p) => (.error fault, p)
  else (.error .notANode, p)

end Page

end BatchScript
