import Std.Data.ExtTreeSet

/-!
# Identifiers of inventory objects

An object is named by four texts: its API group, its kind, its namespace and
its name.  This file defines the identifier, the two pairs it splits into (what
sort of object it is, and which object of that sort) and their orders: each
compares field by field, and texts compare by code point.
-/

namespace InventoryGraph

/-- What sort of object: an API group and a kind in it.  The core group is the
empty text. -/
structure GroupKind where
  group : String
  kind : String
  deriving DecidableEq, Repr, Inhabited

/-- Which object of its sort: a namespace and a name.  Objects outside any
namespace have the empty text in `space`. -/
structure ObjectKey where
  space : String
  name : String
  deriving DecidableEq, Repr, Inhabited

/-- The identifier of an object in the inventory. -/
structure ObjectId where
  group : String := ""
  kind : String := ""
  space : String := ""
  name : String := ""
  deriving DecidableEq, Repr, Inhabited

namespace ObjectId

/-- The sort of object that an identifier names. -/
def groupKind (id : ObjectId) : GroupKind :=
  ⟨id.group, id.kind⟩

/-- The object within its sort that an identifier names. -/
def objectKey (id : ObjectId) : ObjectKey :=
  ⟨id.space, id.name⟩

end ObjectId

/-- The qualified kind, `kind.group`; a kind of the core group stands alone. -/
def GroupKind.display (key : GroupKind) : String :=
  if key.group = "" then key.kind else key.kind ++ "." ++ key.group

/-- The qualified name, `namespace/name`; outside any namespace the name stands
alone. -/
def ObjectKey.display (key : ObjectKey) : String :=
  if key.space = "" then key.name else key.space ++ "/" ++ key.name

/-! ## Orders -/

instance : Ord GroupKind where
  compare := compareLex (compareOn GroupKind.group) (compareOn GroupKind.kind)

instance : Ord ObjectKey where
  compare := compareLex (compareOn ObjectKey.space) (compareOn ObjectKey.name)

instance : Ord ObjectId where
  compare :=
    compareLex (compareOn ObjectId.group) <|
      compareLex (compareOn ObjectId.kind) <|
        compareLex (compareOn ObjectId.space) (compareOn ObjectId.name)

theorem GroupKind.compare_eq (left right : GroupKind) :
    compare left right =
      (compare left.group right.group).then (compare left.kind right.kind) :=
  rfl

theorem ObjectKey.compare_eq (left right : ObjectKey) :
    compare left right =
      (compare left.space right.space).then (compare left.name right.name) :=
  rfl

theorem ObjectId.compare_eq (left right : ObjectId) :
    compare left right =
      (compare left.group right.group).then
        ((compare left.kind right.kind).then
          ((compare left.space right.space).then (compare left.name right.name))) :=
  rfl

instance : Std.TransOrd GroupKind :=
  inferInstanceAs (Std.TransCmp
    (compareLex (compareOn GroupKind.group) (compareOn GroupKind.kind)))

instance : Std.TransOrd ObjectKey :=
  inferInstanceAs (Std.TransCmp
    (compareLex (compareOn ObjectKey.space) (compareOn ObjectKey.name)))

instance : Std.TransOrd ObjectId :=
  inferInstanceAs (Std.TransCmp
    (compareLex (compareOn ObjectId.group) <|
      compareLex (compareOn ObjectId.kind) <|
        compareLex (compareOn ObjectId.space) (compareOn ObjectId.name)))

instance : Std.LawfulEqOrd GroupKind where
  eq_of_compare {left right} same := by
    obtain ⟨group, kind⟩ := left
    simp only [GroupKind.compare_eq, Ordering.then_eq_eq,
      Std.LawfulEqOrd.compare_eq_iff_eq] at same
    simp [same]

instance : Std.LawfulEqOrd ObjectKey where
  eq_of_compare {left right} same := by
    obtain ⟨space, name⟩ := left
    simp only [ObjectKey.compare_eq, Ordering.then_eq_eq,
      Std.LawfulEqOrd.compare_eq_iff_eq] at same
    simp [same]

instance : Std.LawfulEqOrd ObjectId where
  eq_of_compare {left right} same := by
    obtain ⟨group, kind, space, name⟩ := left
    simp only [ObjectId.compare_eq, Ordering.then_eq_eq,
      Std.LawfulEqOrd.compare_eq_iff_eq] at same
    simp [same]

instance : LE ObjectId :=
  leOfOrd

instance : LT ObjectId :=
  ltOfOrd

instance (left right : ObjectId) : Decidable (left ≤ right) :=
  inferInstanceAs (Decidable ((compare left right).isLE = true))

end InventoryGraph
