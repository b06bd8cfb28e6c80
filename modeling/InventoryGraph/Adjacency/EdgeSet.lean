import InventoryGraph.Adjacency.Entry
import Mathlib.Data.Finset.Card

/-!
# The set of undirected edges

An adjacency stores an edge at both its ends, while its list of undirected edges
has it at the smaller end only.  The list repeats nothing, so its length, which
is what `edgeCount` computes, is the number of edges (`edgeCount_eq_card`).
-/

namespace InventoryGraph.Adjacency

/-! ## The list of edges -/

/-- The listed edges are those from an object to a neighbour that is not smaller. -/
theorem mem_undirected_iff {edges : Adjacency} {edge : Edge} :
    edge ∈ edges.undirected ↔
      edge.source ≤ edge.target ∧ edge.target ∈ edges.neighbours edge.source edge.label := by
  obtain ⟨source, label, target⟩ := edge
  simp only [undirected, List.mem_flatMap, List.mem_map, List.mem_filter, Prod.exists,
    Std.ExtTreeMap.mem_toList_iff_getElem?_eq_some, Std.ExtTreeSet.mem_toList,
    decide_eq_true_eq, mem_neighbours_iff]
  constructor
  · rintro ⟨id, row, storedRow, other, entry, storedEntry, x, ⟨member, le⟩, same⟩
    obtain ⟨rfl, rfl, rfl⟩ := Edge.mk.inj same
    exact ⟨le, row, storedRow, entry, storedEntry, member⟩
  · rintro ⟨le, row, storedRow, entry, storedEntry, member⟩
    exact ⟨source, row, storedRow, label, entry, storedEntry, target, ⟨member, le⟩, rfl⟩

/-- Parts that carry the keys of a map have nothing in common. -/
private theorem nodup_flatMap_toList {α β γ : Type} [Ord α] [Std.TransOrd α]
    [Std.LawfulEqOrd α] (map : Std.ExtTreeMap α β) (part : α × β → List γ) (key : γ → α)
    (nodup : ∀ entry, (part entry).Nodup) (keyed : ∀ entry, ∀ x ∈ part entry, key x = entry.1) :
    (map.toList.flatMap part).Nodup := by
  apply List.pairwise_flatMap.mpr
  constructor
  · exact fun entry _ => nodup entry
  · apply Std.ExtTreeMap.distinct_keys_toList.imp
    rintro left right distinct x member _ other rfl
    rw [← keyed left x member, ← keyed right x other] at distinct
    simp at distinct

/-- No edge is listed twice. -/
theorem nodup_undirected (edges : Adjacency) : edges.undirected.Nodup := by
  apply nodup_flatMap_toList edges.rows _ Edge.source
  · rintro ⟨source, row⟩
    apply nodup_flatMap_toList row _ Edge.label
    · rintro ⟨label, entry⟩
      exact (entry.nodup_toList.filter _).map fun _ _ same => congrArg Edge.target same
    · rintro ⟨label, entry⟩ edge member
      obtain ⟨x, _, rfl⟩ := List.mem_map.mp member
      rfl
  · rintro ⟨source, row⟩ edge member
    obtain ⟨⟨label, entry⟩, _, inside⟩ := List.mem_flatMap.mp member
    obtain ⟨x, _, rfl⟩ := List.mem_map.mp inside
    rfl

private theorem foldl_add_length {α β : Type} (list : List α) (items : α → List β)
    (total : Nat) :
    list.foldl (fun total x => total + (items x).length) total =
      total + (list.flatMap items).length := by
  induction list generalizing total with
  | nil => rfl
  | cons first rest ih =>
      rw [List.foldl_cons, ih, List.flatMap_cons, List.length_append, Nat.add_assoc]

/-- The count of edges is the length of their list. -/
theorem edgeCount_eq_length (edges : Adjacency) : edges.edgeCount = edges.undirected.length := by
  have row_length : ∀ (total : Nat) (id : ObjectId) (row : Row),
      row.foldl (fun total _ entry => total + (entry.toList.filter (id ≤ ·)).length) total =
        total + (row.toList.flatMap fun labelled =>
          (labelled.2.toList.filter (id ≤ ·)).map fun target =>
            Edge.mk id labelled.1 target).length := by
    intro total id row
    rw [Std.ExtTreeMap.foldl_eq_foldl_toList, ← foldl_add_length]
    simp only [List.length_map]
  simp only [edgeCount, row_length]
  rw [Std.ExtTreeMap.foldl_eq_foldl_toList, undirected]
  exact (foldl_add_length _ _ 0).trans (Nat.zero_add _)

/-! ## The set of edges -/

/-- The undirected edges. -/
def edgeSet (edges : Adjacency) : Finset Edge :=
  edges.undirected.toFinset

theorem mem_edgeSet_iff {edges : Adjacency} {edge : Edge} :
    edge ∈ edges.edgeSet ↔
      edge.source ≤ edge.target ∧ edge.target ∈ edges.neighbours edge.source edge.label := by
  rw [edgeSet, List.mem_toFinset, mem_undirected_iff]

theorem edgeCount_eq_card (edges : Adjacency) : edges.edgeCount = edges.edgeSet.card := by
  rw [edgeSet, List.toFinset_card_of_nodup edges.nodup_undirected, edgeCount_eq_length]

end InventoryGraph.Adjacency
