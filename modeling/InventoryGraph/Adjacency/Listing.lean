import InventoryGraph.Adjacency.EdgeSet
import InventoryGraph.Adjacency.Extensional
import Mathlib.Data.List.Sort

/-!
# What is listed of an adjacency

The objects that have others, and the labels under which one object has others,
are listed in their orders, each once.  Who is listed is a matter of neighbours
alone (`mem_ids_iff`, `mem_labels_iff`), so an empty entry does not show in any
listing or count: a snapshot lists and counts the same (`ids_snapshot` and its
siblings).
-/

namespace InventoryGraph

/-- Lists in strict order with the same members are the same. -/
theorem eq_of_pairwise_lt {α : Type} [Ord α] [Std.TransOrd α] {first second : List α}
    (firstOrdered : first.Pairwise fun left right => compare left right = .lt)
    (secondOrdered : second.Pairwise fun left right => compare left right = .lt)
    (same : ∀ x, x ∈ first ↔ x ∈ second) : first = second := by
  have irrefl : Std.Irrefl fun left right : α => compare left right = .lt :=
    ⟨fun x => by simp⟩
  have antisymm : Std.Antisymm fun left right : α => compare left right = .lt := by
    constructor
    intro left right before after
    rw [Std.OrientedCmp.gt_of_lt before] at after
    cases after
  exact firstOrdered.eq_of_mem_iff secondOrdered same

namespace Adjacency

variable {edges : Adjacency}

/-! ## Labels of an object -/

theorem neighbours_eq_getD_row (edges : Adjacency) (id : ObjectId) (label : Label) :
    edges.neighbours id label = (edges.row id)[label]?.getD ∅ :=
  rfl

/-- A row is occupied when the object has others under some label. -/
theorem occupied_row_iff {id : ObjectId} :
    occupied (edges.row id) = true ↔ ∃ label, edges.neighbours id label ≠ ∅ := by
  simp only [occupied, List.any_eq_true, Prod.exists,
    Std.ExtTreeMap.mem_toList_iff_getElem?_eq_some, neighbours_eq_getD_row]
  constructor
  · rintro ⟨label, entry, stored, nonempty⟩
    refine ⟨label, fun vacant => ?_⟩
    rw [stored, Option.getD_some] at vacant
    simp [vacant] at nonempty
  · rintro ⟨label, nonempty⟩
    cases stored : (edges.row id)[label]? with
    | none => simp [stored] at nonempty
    | some entry => exact ⟨label, entry, stored, by simpa [stored] using nonempty⟩

theorem contains_iff {id : ObjectId} :
    edges.contains id = true ↔ ∃ label, edges.neighbours id label ≠ ∅ :=
  occupied_row_iff

theorem mem_labels_iff {id : ObjectId} {label : Label} :
    label ∈ edges.labels id ↔ edges.neighbours id label ≠ ∅ := by
  simp only [labels, List.mem_map, List.mem_filter, Prod.exists, exists_and_right,
    exists_eq_right, Std.ExtTreeMap.mem_toList_iff_getElem?_eq_some, neighbours_eq_getD_row]
  cases stored : (edges.row id)[label]? with
  | none => simp
  | some entry => simp

theorem pairwise_labels (edges : Adjacency) (id : ObjectId) :
    (edges.labels id).Pairwise fun left right => compare left right = .lt := by
  rw [labels, List.pairwise_map]
  exact Std.ExtTreeMap.ordered_keys_toList.filter _

/-! ## Objects that have others -/

theorem mem_ids_iff {id : ObjectId} :
    id ∈ edges.ids ↔ ∃ label, edges.neighbours id label ≠ ∅ := by
  rw [← occupied_row_iff]
  simp only [ids, List.mem_map, List.mem_filter, Prod.exists, exists_and_right,
    exists_eq_right, Std.ExtTreeMap.mem_toList_iff_getElem?_eq_some, row]
  cases stored : edges.rows[id]? with
  | none => simp [occupied]
  | some row => simp

theorem pairwise_ids (edges : Adjacency) :
    edges.ids.Pairwise fun left right => compare left right = .lt := by
  rw [ids, List.pairwise_map]
  exact Std.ExtTreeMap.ordered_keys_toList.filter _

/-- Where no entry is empty, an object without others has no entries at all. -/
theorem NoEmptyEntry.row_eq_empty_iff (entries : edges.NoEmptyEntry) {id : ObjectId} :
    edges.row id = ∅ ↔ ∀ label, edges.neighbours id label = ∅ := by
  constructor
  · intro vacant label
    rw [neighbours_eq_getD_row, vacant, Std.ExtTreeMap.getElem?_empty, Option.getD_none]
  · intro vacant
    apply Std.ExtTreeMap.ext_getElem?
    intro label
    change edges.find? id label = _
    rw [entries.find?_eq, if_pos (vacant label), Std.ExtTreeMap.getElem?_empty]

/-- Without empty rows and entries, the objects listed are those that have a row. -/
theorem ids_eq_keys (rows : edges.NoEmptyRow) (entries : edges.NoEmptyEntry) :
    edges.ids = edges.rows.keys := by
  apply eq_of_pairwise_lt (pairwise_ids edges) Std.ExtTreeMap.ordered_keys
  intro id
  rw [mem_ids_iff, Std.ExtTreeMap.mem_keys, Std.ExtTreeMap.mem_iff_isSome_getElem?,
    rows.getElem?_rows, ← not_forall, ← entries.row_eq_empty_iff]
  by_cases vacant : edges.row id = ∅ <;> simp [vacant]

/-! ## Snapshots list the same -/

@[simp]
theorem labels_snapshot (edges : Adjacency) (id : ObjectId) :
    edges.snapshot.labels id = edges.labels id := by
  apply eq_of_pairwise_lt (pairwise_labels _ id) (pairwise_labels _ id)
  intro label
  rw [mem_labels_iff, mem_labels_iff, neighbours_snapshot]

@[simp]
theorem ids_snapshot (edges : Adjacency) : edges.snapshot.ids = edges.ids := by
  apply eq_of_pairwise_lt (pairwise_ids _) (pairwise_ids _)
  intro id
  simp only [mem_ids_iff, neighbours_snapshot]

@[simp]
theorem contains_snapshot (edges : Adjacency) (id : ObjectId) :
    edges.snapshot.contains id = edges.contains id := by
  rw [Bool.eq_iff_iff, contains_iff, contains_iff]
  simp only [neighbours_snapshot]

@[simp]
theorem nodeCount_snapshot (edges : Adjacency) : edges.snapshot.nodeCount = edges.nodeCount :=
  congrArg List.length (ids_snapshot edges)

@[simp]
theorem edgeSet_snapshot (edges : Adjacency) : edges.snapshot.edgeSet = edges.edgeSet := by
  ext edge
  rw [mem_edgeSet_iff, mem_edgeSet_iff, neighbours_snapshot]

@[simp]
theorem edgeCount_snapshot (edges : Adjacency) : edges.snapshot.edgeCount = edges.edgeCount := by
  rw [edgeCount_eq_card, edgeCount_eq_card, edgeSet_snapshot]

end Adjacency

end InventoryGraph
