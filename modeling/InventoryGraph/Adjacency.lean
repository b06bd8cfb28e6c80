import InventoryGraph.Label
import InventoryGraph.ObjectId.Basic
import Std.Data.ExtTreeMap

/-!
# Labelled adjacency

An adjacency assigns a set of objects to every pair of an object and a label.
It is stored as a row for each object, and a row has an entry for each of its
labels.  The same type serves for the edges of a graph, where each edge lies in
the entries of both its ends, and for the last reports of the sources.

An entry may be empty: whether an entry that loses its last object is dropped is
a choice of the caller, while a row always goes with its last entry.  What is
read from an adjacency, the stored rows and entries themselves apart, does not
tell an empty entry from an absent one.
-/

namespace InventoryGraph

/-- A set of objects, listed in their order. -/
abbrev IdSet :=
  Std.ExtTreeSet ObjectId

/-- The entries of one object. -/
abbrev Row :=
  Std.ExtTreeMap Label IdSet

/-- A set of objects for every object and label. -/
@[ext]
structure Adjacency where
  rows : Std.ExtTreeMap ObjectId Row
  deriving DecidableEq

namespace Adjacency

/-- The adjacency without entries. -/
def empty : Adjacency :=
  ⟨∅⟩

/-- The entries of an object. -/
def row (edges : Adjacency) (id : ObjectId) : Row :=
  edges.rows[id]?.getD ∅

/-- The entry of an object and a label, empty or not. -/
def find? (edges : Adjacency) (id : ObjectId) (label : Label) : Option IdSet :=
  (edges.row id)[label]?

/-- The objects that an object has under a label. -/
def neighbours (edges : Adjacency) (id : ObjectId) (label : Label) : IdSet :=
  (edges.find? id label).getD ∅

/-! ## Changing entries -/

/-- Changes one entry.  The row goes with its last entry. -/
def alter (edges : Adjacency) (id : ObjectId) (label : Label)
    (change : Option IdSet → Option IdSet) : Adjacency :=
  ⟨edges.rows.alter id fun row =>
    let row := (row.getD ∅).alter label change
    if row.isEmpty then none else some row⟩

/-- Adds an object to an entry. -/
def attach (edges : Adjacency) (id : ObjectId) (label : Label) (target : ObjectId) : Adjacency :=
  edges.alter id label fun entry => some ((entry.getD ∅).insert target)

/-- Takes an object out of an entry.  With `prune`, an entry left empty goes. -/
def detach (prune : Bool) (edges : Adjacency) (id : ObjectId) (label : Label)
    (target : ObjectId) : Adjacency :=
  edges.alter id label fun
    | none => none
    | some entry =>
        let rest := entry.erase target
        if prune && rest.isEmpty then none else some rest

/-- Joins two objects, on both sides. -/
def link (edges : Adjacency) (left : ObjectId) (label : Label) (right : ObjectId) : Adjacency :=
  (edges.attach left label right).attach right label left

/-- Parts two objects, on both sides. -/
def unlink (prune : Bool) (edges : Adjacency) (left : ObjectId) (label : Label)
    (right : ObjectId) : Adjacency :=
  (edges.detach prune left label right).detach prune right label left

/-- Joins an object with each of a set. -/
def linkAll (edges : Adjacency) (id : ObjectId) (label : Label) (targets : IdSet) : Adjacency :=
  targets.foldl (fun edges target => edges.link id label target) edges

/-- Parts an object from each of a set. -/
def unlinkAll (prune : Bool) (edges : Adjacency) (id : ObjectId) (label : Label)
    (targets : IdSet) : Adjacency :=
  targets.foldl (fun edges target => edges.unlink prune id label target) edges

/-- Replaces an entry; an empty set leaves none. -/
def assign (edges : Adjacency) (id : ObjectId) (label : Label) (targets : IdSet) : Adjacency :=
  edges.alter id label fun _ => if targets.isEmpty then none else some targets

/-- Drops all entries of an object. -/
def eraseRow (edges : Adjacency) (id : ObjectId) : Adjacency :=
  ⟨edges.rows.erase id⟩

/-! ## Reading -/

/-- Whether a row has an object under some label. -/
def occupied (row : Row) : Bool :=
  row.toList.any fun (_, entry) => !entry.isEmpty

/-- The labels under which an object has others. -/
def labels (edges : Adjacency) (id : ObjectId) : List Label :=
  ((edges.row id).toList.filter fun (_, entry) => !entry.isEmpty).map Prod.fst

/-- Whether an object has others under any label. -/
def contains (edges : Adjacency) (id : ObjectId) : Bool :=
  occupied (edges.row id)

/-- The objects that have others, in their order. -/
def ids (edges : Adjacency) : List ObjectId :=
  (edges.rows.toList.filter fun (_, row) => occupied row).map Prod.fst

/-- How many objects have others. -/
def nodeCount (edges : Adjacency) : Nat :=
  edges.ids.length

/-- How many edges there are, each counted at its smaller end. -/
def edgeCount (edges : Adjacency) : Nat :=
  edges.rows.foldl
    (fun total id row =>
      row.foldl (fun total _ entry => total + (entry.toList.filter (id ≤ ·)).length) total)
    0

/-- The adjacency without its empty entries. -/
def snapshot (edges : Adjacency) : Adjacency :=
  ⟨edges.rows.filterMap fun _ row =>
    let row := row.filter fun _ entry => !entry.isEmpty
    if row.isEmpty then none else some row⟩

end Adjacency

/-- An undirected edge, with its smaller end as the source. -/
structure Edge where
  source : ObjectId
  label : Label
  target : ObjectId
  deriving DecidableEq, Repr

/-- Every edge once, in the order of the source, then of the label, then of the
target. -/
def Adjacency.undirected (edges : Adjacency) : List Edge :=
  edges.rows.toList.flatMap fun (source, row) =>
    row.toList.flatMap fun (label, entry) =>
      (entry.toList.filter (source ≤ ·)).map fun target => ⟨source, label, target⟩

end InventoryGraph
