import InventoryGraph.Adjacency
import InventoryGraph.ObjectId.Code

/-!
# Links

The objects that a lookup finds, in a bucket for each sort of object.  Buckets
are listed in the order of their keys, and the members of a bucket in the order
of their text forms.  Each member is read back from its text form, so a bucket
holds only ids that the text form determines.
-/

namespace InventoryGraph

/-- The objects of one sort. -/
structure Bucket where
  key : GroupKind
  members : List ObjectId
  deriving DecidableEq, Repr

/-- The objects that a lookup finds, by sort. -/
abbrev Links :=
  List Bucket

/-- Lists objects in the order of their text forms. -/
def sortByText (ids : List ObjectId) : List ObjectId :=
  ids.mergeSort fun left right => left.encode ≤ right.encode

namespace Links

/-- The sorts of objects in a list, each once and in order. -/
def keys (ids : List ObjectId) : List GroupKind :=
  (Std.ExtTreeSet.ofList (ids.map ObjectId.groupKind)).toList

/-- The objects of one sort. -/
def bucket (ids : List ObjectId) (key : GroupKind) : Bucket :=
  ⟨key, sortByText (ids.filter fun id => id.groupKind = key)⟩

/-- Reads each id back from its text form. -/
def reread : List ObjectId → Except DecodeError (List ObjectId)
  | [] => .ok []
  | id :: rest => do
      let id ← ObjectId.decode id.encode
      let rest ← reread rest
      return id :: rest

/-- Puts objects in buckets. -/
def ofIds (ids : List ObjectId) : Except DecodeError Links := do
  let ids ← reread ids
  return (keys ids).map (bucket ids)

/-- How many objects there are. -/
def size (links : Links) : Nat :=
  links.foldl (fun total bucket => total + bucket.members.length) 0

/-- All objects, bucket by bucket. -/
def flatten (links : Links) : List ObjectId :=
  links.flatMap Bucket.members

/-- Only the bucket with a given key. -/
def narrow (key : GroupKind) (links : Links) : Links :=
  links.filter fun bucket => bucket.key = key

/-- The first `budget` objects, bucket by bucket.  A bucket that gets none is
left out. -/
def limit (budget : Nat) : Links → Links
  | [] => []
  | ⟨key, members⟩ :: rest =>
      let kept := members.take budget
      let rest := limit (budget - kept.length) rest
      if kept.isEmpty then rest else ⟨key, kept⟩ :: rest

/-! ## Sizes and limits through the flat list -/

private theorem foldl_size (links : Links) (total : Nat) :
    links.foldl (fun total bucket => total + bucket.members.length) total =
      total + links.flatten.length := by
  induction links generalizing total with
  | nil => rfl
  | cons bucket rest ih =>
      simp only [List.foldl_cons, ih, flatten, List.flatMap_cons, List.length_append,
        Nat.add_assoc]

/-- The size counts the objects of all buckets. -/
theorem size_eq_length_flatten (links : Links) : links.size = links.flatten.length := by
  simp [size, foldl_size]

@[simp]
theorem flatten_cons (bucket : Bucket) (rest : Links) :
    flatten (bucket :: rest) = bucket.members ++ flatten rest :=
  rfl

/-- A limit keeps a prefix of all objects. -/
theorem flatten_limit (budget : Nat) (links : Links) :
    (limit budget links).flatten = links.flatten.take budget := by
  induction links generalizing budget with
  | nil => simp [limit, flatten]
  | cons bucket rest ih =>
      obtain ⟨key, members⟩ := bucket
      have spent : budget - (members.take budget).length = budget - members.length := by
        simp only [List.length_take]
        omega
      cases kept : members.take budget with
      | nil =>
          have cut : (members ++ flatten rest).take budget =
              (flatten rest).take (budget - members.length) := by
            rw [List.take_append, kept, List.nil_append]
          simp only [limit, kept, List.isEmpty_nil, if_true, ih, flatten_cons, cut]
          rw [← kept, spent]
      | cons first others =>
          rw [kept] at spent
          simp only [limit, kept, List.isEmpty_cons, Bool.false_eq_true, if_false, ih,
            flatten_cons, spent, List.take_append]

end Links

end InventoryGraph
