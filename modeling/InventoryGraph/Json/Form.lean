import InventoryGraph.Json.Reader
import InventoryGraph.Json.Writer
import InventoryGraph.Label
import InventoryGraph.ObjectId.Code

/-!
# JSON forms of identifiers and labels

A label and an object id are JSON strings, the id in its text form.  The pairs
that an id splits into are records of two strings.  Every form is read from any
JSON text that denotes it and written compactly.
-/

namespace InventoryGraph

open Json

namespace Label

/-- A label as a JSON value. -/
def toJson (label : Label) : Json :=
  .text label.text

/-- The label that a JSON value denotes. -/
def ofJson? (value : Json) : Option Label :=
  value.text?.map Label.mk

end Label

namespace GroupKind

/-- A group and kind as a JSON value. -/
def toJson (key : GroupKind) : Json :=
  .ofMembers [("group", .text key.group), ("kind", .text key.kind)]

/-- The group and kind that a JSON value denotes. -/
def ofJson? (value : Json) : Option GroupKind :=
  match value.record? ["group", "kind"] with
  | some [some group, some kind] => do
      let group ← group.text?
      let kind ← kind.text?
      return ⟨group, kind⟩
  | _ => none

end GroupKind

namespace ObjectKey

/-- A namespace and name as a JSON value. -/
def toJson (key : ObjectKey) : Json :=
  .ofMembers [("namespace", .text key.space), ("name", .text key.name)]

/-- The namespace and name that a JSON value denotes. -/
def ofJson? (value : Json) : Option ObjectKey :=
  match value.record? ["namespace", "name"] with
  | some [some space, some name] => do
      let space ← space.text?
      let name ← name.text?
      return ⟨space, name⟩
  | _ => none

end ObjectKey

namespace ObjectId

/-- Why a JSON text denotes no id. -/
inductive JsonFault where
  /-- It denotes no text at all. -/
  | noText
  /-- It denotes a text that is no id. -/
  | notId (error : DecodeError)
  deriving DecidableEq, Repr

/-- An id as a JSON value. -/
def toJson (id : ObjectId) : Json :=
  .text id.encode

/-- The id that a JSON value denotes. -/
def ofJson (value : Json) : Except JsonFault ObjectId :=
  match value.text? with
  | none => .error .noText
  | some text => (decode text).mapError .notId

/-- The id that a JSON text denotes. -/
def readJson (text : String) : Except JsonFault ObjectId :=
  match Json.read? text with
  | none => .error .noText
  | some value => ofJson value

end ObjectId

end InventoryGraph
