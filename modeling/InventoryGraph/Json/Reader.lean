import InventoryGraph.Json.Basic
import InventoryGraph.Json.Token

/-!
# Reading JSON

The reader takes the tokens of a text one after the other and keeps the arrays
and objects that are still open on a stack, so nesting may be of any depth.  A
text is read whole: only blanks may surround the value.
-/

namespace InventoryGraph.Json

/-- An array or object that is still open, with what was read of it from the
last part to the first. -/
inductive Frame where
  | array (items : List Json)
  /-- An object, and the key of the member whose value is being read. -/
  | object (members : List (Option String × Json)) (key : Option String)

mutual

/-- Reads on where a value must start. -/
def readValue : List Frame → List Token → Option Json
  | stack, .null :: rest => readOn .null stack rest
  | stack, .bool value :: rest => readOn (.bool value) stack rest
  | stack, .number literal :: rest => readOn (.number literal) stack rest
  | stack, .string text :: rest => readOn (.string text) stack rest
  | stack, .openArray :: .closeArray :: rest => readOn (.array []) stack rest
  | stack, .openArray :: rest => readValue (.array [] :: stack) rest
  | stack, .openObject :: .closeObject :: rest => readOn (.object []) stack rest
  | stack, .openObject :: .string key :: .colon :: rest =>
      readValue (.object [] key :: stack) rest
  | _, _ => none

/-- Reads on after a complete value. -/
def readOn : Json → List Frame → List Token → Option Json
  | value, [], [] => some value
  | value, .array items :: stack, .comma :: rest =>
      readValue (.array (value :: items) :: stack) rest
  | value, .array items :: stack, .closeArray :: rest =>
      readOn (.array (value :: items).reverse) stack rest
  | value, .object members key :: stack, .comma :: .string next :: .colon :: rest =>
      readValue (.object ((key, value) :: members) next :: stack) rest
  | value, .object members key :: stack, .closeObject :: rest =>
      readOn (.object ((key, value) :: members).reverse) stack rest
  | _, _, _ => none

end

/-- The value that a text denotes, if the text is JSON. -/
def read? (text : String) : Option Json :=
  (tokens? text.toList).bind (readValue [])

end InventoryGraph.Json
