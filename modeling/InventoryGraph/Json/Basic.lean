/-!
# JSON values

The values that a JSON text denotes.  Numbers stay as they are written, since
nothing here computes with them, and objects keep their members in the order of
the text, repeated keys included.

A string may spell half of a surrogate pair without the other half.  Such a
string is well-formed JSON but denotes no text, so the text of a string is
optional here and whoever needs it decides what its absence means.
-/

namespace InventoryGraph

/-- A JSON value. -/
inductive Json where
  | null
  | bool (value : Bool)
  | number (literal : String)
  /-- A string with its text, if it has one. -/
  | string (text? : Option String)
  | array (items : List Json)
  | object (members : List (Option String × Json))
  deriving Inhabited

namespace Json

/-- The string with a given text. -/
def text (value : String) : Json :=
  .string (some value)

/-- The object with members of given keys. -/
def ofMembers (members : List (String × Json)) : Json :=
  .object (members.map fun member => (some member.1, member.2))

/-- The text of a string value that has one. -/
def text? : Json → Option String
  | .string value => value
  | _ => none

/-- The truth value of a boolean. -/
def bool? : Json → Option Bool
  | .bool value => some value
  | _ => none

/-- The values of the members with a given key. -/
def valuesAt (key : String) (members : List (Option String × Json)) : List Json :=
  (members.filter fun member => member.1 = some key).map Prod.snd

/-- The fields of a record, in the order of `keys`.  A record is an object whose
keys all have a text and name each field at most once, other keys being ignored;
or an array with the values of the first fields. -/
def record? (keys : List String) : Json → Option (List (Option Json))
  | .array items =>
      if items.length ≤ keys.length then
        some (items.map some ++ List.replicate (keys.length - items.length) none)
      else
        none
  | .object members =>
      if members.all (fun member => member.1.isSome) &&
          keys.all (fun key => (valuesAt key members).length ≤ 1) then
        some (keys.map fun key => (valuesAt key members).head?)
      else
        none
  | _ => none

end Json

end InventoryGraph
