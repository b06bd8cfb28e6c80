import InventoryGraph.ObjectId.Basic
import InventoryGraph.ObjectId.Escape

/-!
# The text form of an object id

An id is written `G=<group>,K=<kind>,NS=<namespace>,N=<name>` with escaped
values.  The reader accepts this form only: all four fields, each once and in
this order.  It reads the segments between commas from left to right and stops
at the first one that is wrong; when every segment is right it looks for the
fields in their order.  A fault says what is wrong and an error adds the text
that was read.
-/

namespace InventoryGraph

open Escape

namespace ObjectId

/-- The four fields of an id, in the order in which they are written. -/
inductive Field where
  | group
  | kind
  | space
  | name
  deriving DecidableEq, Repr

namespace Field

/-- Every field, in the order in which they are written. -/
def all : List Field :=
  [.group, .kind, .space, .name]

/-- The position at which a field is written. -/
def rank : Field → Nat
  | .group => 0
  | .kind => 1
  | .space => 2
  | .name => 3

/-- The text in front of a field's value. -/
def tag : Field → String
  | .group => "G"
  | .kind => "K"
  | .space => "NS"
  | .name => "N"

/-- The field with a given tag. -/
def ofTag? (tag : String) : Option Field :=
  all.find? (fun field => field.tag = tag)

@[simp]
theorem ofTag?_tag (field : Field) : ofTag? field.tag = some field := by
  cases field <;> rfl

/-- A tag belongs to one field only. -/
theorem ofTag?_eq_some_iff {tag : String} {field : Field} :
    ofTag? tag = some field ↔ tag = field.tag := by
  constructor
  · intro found
    have found_tag : field.tag = tag := by simpa using List.find?_some found
    exact found_tag.symm
  · rintro rfl
    exact ofTag?_tag field

/-- The value of a field. -/
def get (id : ObjectId) : Field → String
  | .group => id.group
  | .kind => id.kind
  | .space => id.space
  | .name => id.name

end Field

/-! ## Writing -/

/-- A field with its value, as it stands between two commas. -/
def segment (field : Field) (value : String) : List Char :=
  field.tag.toList ++ '=' :: escape value.toList

/-- The characters of the text form of an id. -/
def code (id : ObjectId) : List Char :=
  [','].intercalate (Field.all.map fun field => segment field (field.get id))

/-- The text form of an id. -/
def encode (id : ObjectId) : String :=
  String.ofList id.code

@[simp]
theorem toList_encode (id : ObjectId) : id.encode.toList = id.code := by
  simp [encode]

end ObjectId

/-! ## Faults -/

/-- What is wrong with a text that is no id. -/
inductive DecodeFault where
  /-- The text between two commas is not a tag and a value around one `=`. -/
  | malformedSegment (segment : String)
  /-- No field has this tag. -/
  | unknownField (tag : String)
  /-- An earlier segment has the same field. -/
  | duplicateField (field : ObjectId.Field)
  /-- A value ends right after an escape mark. -/
  | danglingEscape
  /-- A value escapes a character that needs no escape. -/
  | invalidEscape (escaped : Char)
  /-- No segment has this field. -/
  | missingField (field : ObjectId.Field)
  /-- The field stands elsewhere than at its own position. -/
  | outOfOrder (field : ObjectId.Field)
  deriving DecidableEq, Repr

/-- Why a text is no id. -/
inductive DecodeError where
  /-- The text is empty. -/
  | empty
  /-- The text `input` has a fault. -/
  | inText (input : String) (fault : DecodeFault)
  deriving DecidableEq, Repr

namespace DecodeFault

/-- The fault of a segment whose value is badly escaped. -/
def ofEscape : Escape.Fault → DecodeFault
  | .dangling => .danglingEscape
  | .invalid escaped => .invalidEscape escaped

/-- The fault in words, up to the text in which it was found. -/
def message : DecodeFault → String
  | .malformedSegment segment => "malformed segment '" ++ segment ++ "' in"
  | .unknownField tag => "unknown key " ++ tag ++ " in"
  | .duplicateField field => "duplicate field " ++ field.tag ++ " in"
  | .danglingEscape => "dangling escape at end of"
  | .invalidEscape escaped => "invalid escape '\\" ++ escaped.toString ++ "' in"
  | .missingField field => "missing field " ++ field.tag ++ " in"
  | .outOfOrder field => "field " ++ field.tag ++ " out of order in"

end DecodeFault

namespace DecodeError

/-- The error in words. -/
def message : DecodeError → String
  | .empty => "empty object id"
  | .inText input fault => fault.message ++ " object id '" ++ input ++ "'"

/-- Whether the text uses a tag that no field has. -/
def isUnknownField : DecodeError → Bool
  | .inText _ (.unknownField _) => true
  | _ => false

end DecodeError

namespace ObjectId

/-! ## Reading -/

/-- A segment that has been read: its field and its value. -/
abbrev Entry :=
  Field × String

/-- Reads one segment after those with the fields `earlier`. -/
def readSegment (earlier : List Field) (raw : List Char) : Except DecodeFault Entry :=
  match split '=' raw with
  | [tag, value] =>
      match Field.ofTag? (String.ofList tag) with
      | none => .error (.unknownField (String.ofList tag))
      | some field =>
          if field ∈ earlier then
            .error (.duplicateField field)
          else
            match unescape value with
            | .error fault => .error (.ofEscape fault)
            | .ok value => .ok (field, String.ofList value)
  | _ => .error (.malformedSegment (String.ofList raw))

/-- Reads segments from left to right, after those already `read`. -/
def readSegments (read : List Entry) : List (List Char) → Except DecodeFault (List Entry)
  | [] => .ok read
  | raw :: rest =>
      match readSegment (read.map Prod.fst) raw with
      | .error fault => .error fault
      | .ok entry => readSegments (read ++ [entry]) rest

/-- The value of a field, which must stand at the field's own position. -/
def valueOf (entries : List Entry) (field : Field) : Except DecodeFault String :=
  match entries.zipIdx.find? (fun entry => entry.1.1 = field) with
  | none => .error (.missingField field)
  | some ((_, value), position) =>
      if position = field.rank then .ok value else .error (.outOfOrder field)

/-- Reads the characters of an id. -/
def ofCode (chars : List Char) : Except DecodeFault ObjectId := do
  let entries ← readSegments [] (split ',' chars)
  let group ← valueOf entries .group
  let kind ← valueOf entries .kind
  let space ← valueOf entries .space
  let name ← valueOf entries .name
  return ⟨group, kind, space, name⟩

/-- Reads the text form of an id. -/
def decode (text : String) : Except DecodeError ObjectId :=
  if text = "" then .error .empty else (ofCode text.toList).mapError (.inText text)

end ObjectId

end InventoryGraph
