import InventoryGraph.Json.Basic
import InventoryGraph.Json.Text

/-!
# Writing JSON

A value is written in a layout: the text in front of each item of an array or
object, which depends on how deep the item lies, and the text between a key and
its value.  The compact layout uses neither, the indented one gives each item a
line of its own.  Empty arrays and objects take no layout.
-/

namespace InventoryGraph.Json

/-- The blanks that a written value contains. -/
structure Layout where
  /-- What stands in front of an item at some depth and of the bracket that ends
  an array or object at that depth. -/
  line : Nat → String
  /-- What stands between the colon of a member and its value. -/
  gap : String

namespace Layout

/-- No blanks at all. -/
def compact : Layout :=
  ⟨fun _ => "", ""⟩

/-- A line for each item, indented by two blanks for each level. -/
def indented : Layout :=
  ⟨fun depth => "\n" ++ String.ofList (List.replicate (2 * depth) ' '), " "⟩

end Layout

mutual

/-- Writes a value that stands at a given depth. -/
def write (layout : Layout) (depth : Nat) : Json → String
  | .null => "null"
  | .bool true => "true"
  | .bool false => "false"
  | .number literal => literal
  | .string text => quote (text.getD "")
  | .array [] => "[]"
  | .array (item :: items) =>
      "[" ++ layout.line (depth + 1) ++ write layout (depth + 1) item ++
        writeItems layout (depth + 1) items ++ layout.line depth ++ "]"
  | .object [] => "\x7b\x7d"
  | .object ((key, value) :: members) =>
      "\x7b" ++ layout.line (depth + 1) ++ quote (key.getD "") ++ ":" ++ layout.gap ++
        write layout (depth + 1) value ++
        writeMembers layout (depth + 1) members ++ layout.line depth ++ "\x7d"

/-- Writes the items of an array after the first. -/
def writeItems (layout : Layout) (depth : Nat) : List Json → String
  | [] => ""
  | item :: items =>
      "," ++ layout.line depth ++ write layout depth item ++ writeItems layout depth items

/-- Writes the members of an object after the first. -/
def writeMembers (layout : Layout) (depth : Nat) : List (Option String × Json) → String
  | [] => ""
  | (key, value) :: members =>
      "," ++ layout.line depth ++ quote (key.getD "") ++ ":" ++ layout.gap ++
        write layout depth value ++ writeMembers layout depth members

end

/-- A value on one line. -/
def compact (value : Json) : String :=
  write .compact 0 value

/-- A value with a line for each item. -/
def pretty (value : Json) : String :=
  write .indented 0 value

end InventoryGraph.Json
