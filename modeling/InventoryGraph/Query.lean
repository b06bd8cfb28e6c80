import InventoryGraph.Graph

/-!
# Queries

A query asks for the links of an object.  It is put together part by part: the
label to follow, the group and kind to keep, and how many objects to answer with
at most.  A part given again replaces the earlier one.

A query needs a label, and a group other than the core group needs a kind; the
label is checked first.  A kind without group means the core group.  The limit
is spent bucket by bucket, after all other buckets are dropped.
-/

namespace InventoryGraph

/-- A query for the links of an object. -/
structure Query where
  label : Option Label := none
  group : Option String := none
  kind : Option String := none
  limit : Option Nat := none
  deriving DecidableEq, Repr

namespace Query

/-- One part of a query. -/
inductive Part where
  | label (label : Label)
  | group (group : String)
  | kind (kind : String)
  | limit (limit : Nat)
  deriving DecidableEq, Repr

/-- Sets one part of a query. -/
def set (query : Query) : Part → Query
  | .label label => { query with label := some label }
  | .group group => { query with group := some group }
  | .kind kind => { query with kind := some kind }
  | .limit limit => { query with limit := some limit }

/-- The query with given parts. -/
def ofParts (parts : List Part) : Query :=
  parts.foldl set {}

/-! ## Checking -/

/-- The failure of a query without label. -/
def labelMissing : Failure :=
  .invalidQuery "label is not set"

/-- The failure of a query with a group and no kind. -/
def kindMissing : Failure :=
  .invalidQuery "group is set but kind is not set"

/-- The bucket that a query keeps, if it does not keep all. -/
def selection (query : Query) : Except Failure (Option GroupKind) :=
  match query.group, query.kind with
  | group, some kind => .ok (some ⟨group.getD "", kind⟩)
  | some group, none => if group = "" then .ok none else .error kindMissing
  | none, none => .ok none

/-- The label that a query follows and the bucket that it keeps. -/
def plan (query : Query) : Except Failure (Label × Option GroupKind) :=
  match query.label with
  | none => .error labelMissing
  | some label => query.selection.map fun selection => (label, selection)

/-! ## Answering -/

/-- The links that a query asks for, out of all links under its label. -/
def select (query : Query) (selection : Option GroupKind) (links : Links) : Links :=
  let links :=
    match selection with
    | none => links
    | some key => links.narrow key
  match query.limit with
  | none => links
  | some limit => links.limit limit

/-- The answer in buckets. -/
def grouped (query : Query) (graph : Graph) (id : ObjectId) : Except Failure Links := do
  let (label, selection) ← query.plan
  let links ← graph.links id label
  return query.select selection links

/-- The answer as one list, in the order of text forms. -/
def listed (query : Query) (graph : Graph) (id : ObjectId) : Except Failure (List ObjectId) :=
  (query.grouped graph id).map fun links => sortByText links.flatten

/-- How many objects the answer has. -/
def count (query : Query) (graph : Graph) (id : ObjectId) : Except Failure Nat :=
  (query.grouped graph id).map Links.size

/-- Whether the query finds anything, whatever its limit. -/
def holds (query : Query) (graph : Graph) (id : ObjectId) : Except Failure Bool :=
  ((query.set (.limit 1)).count graph id).map fun count => 0 < count

end Query

end InventoryGraph
