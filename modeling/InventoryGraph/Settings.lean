import InventoryGraph.Failure
import InventoryGraph.Json.Form

/-!
# Settings of a graph

The label whose edges join the parts of a logical unit, the rule by which a
report counts as old news, and whether entries that have become empty are
dropped.  Settings are read from a JSON record in which every field has a
default, and written with all fields.
-/

namespace InventoryGraph

/-- When a report of a label is skipped because it tells nothing new. -/
inductive SkipRule where
  /-- When it lists the same objects as the last one. -/
  | equality
  /-- When it lists at least the objects of the last one. -/
  | subset
  deriving DecidableEq, Repr, Inhabited

namespace SkipRule

/-- The name of a rule in settings. -/
def name : SkipRule → String
  | .equality => "equality"
  | .subset => "subset"

/-- The rule with a given name. -/
def ofName? (name : String) : Option SkipRule :=
  [equality, subset].find? (fun rule => rule.name = name)

@[simp]
theorem ofName?_name (rule : SkipRule) : ofName? rule.name = some rule := by
  cases rule <;> rfl

/-- The rule that a JSON value denotes: its name, or an object with the name as
its only key and nothing below it. -/
def ofJson? : Json → Option SkipRule
  | .string (some name) => ofName? name
  | .object [(some name, .null)] => ofName? name
  | _ => none

end SkipRule

/-- The settings of a graph. -/
structure Settings where
  /-- The label whose edges join the parts of a logical unit. -/
  expansion : Label := .offshoot
  /-- When a report is skipped. -/
  skip : SkipRule := .equality
  /-- Whether entries that have become empty are dropped. -/
  prune : Bool := true
  deriving DecidableEq, Repr, Inhabited

namespace Settings

/-- The names of the fields, in the order in which they are written. -/
def fieldNames : List String :=
  ["expansion_label", "noop_check", "prune_empty"]

/-- Settings as a JSON value. -/
def toJson (settings : Settings) : Json :=
  .ofMembers
    [("expansion_label", settings.expansion.toJson),
      ("noop_check", .text settings.skip.name),
      ("prune_empty", .bool settings.prune)]

/-- Settings as a JSON text. -/
def render (settings : Settings) : String :=
  settings.toJson.compact

/-- The value of a field that may be absent. -/
def fieldOr {α : Type} (absent : α) (read : Json → Option α) : Option Json → Option α
  | none => some absent
  | some value => read value

/-- The settings that a JSON value denotes; an absent field has its default. -/
def ofJson? (value : Json) : Option Settings :=
  match value.record? fieldNames with
  | some [expansion, skip, prune] => do
      let expansion ← fieldOr .offshoot Label.ofJson? expansion
      let skip ← fieldOr .equality SkipRule.ofJson? skip
      let prune ← fieldOr true Json.bool? prune
      return ⟨expansion, skip, prune⟩
  | _ => none

/-- The failure to read settings. -/
def unreadable : Failure :=
  .serialization "Failed to parse graph config" true

/-- The settings that a JSON text denotes. -/
def parse (text : String) : Except Failure Settings :=
  match (Json.read? text).bind ofJson? with
  | none => .error unreadable
  | some settings => .ok settings

end Settings

end InventoryGraph
