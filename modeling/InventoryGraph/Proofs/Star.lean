import InventoryGraph.Adjacency.EdgeSet
import InventoryGraph.Adjacency.Extensional
import InventoryGraph.Proofs.Symmetry

/-!
# The edges at an object

The edges between an object and some others form a star, which has as many edges
as there are others, the object itself allowed among them (`card_star`).  Where
both ends store every edge, an object has an edge to each of its neighbours and
to nothing else, so the part of a star that lies in an adjacency is the star of
the neighbours (`star_inter_edgeSet`, `star_sdiff_edgeSet`), and the set of edges
tells as much as a snapshot does (`edgeSet_eq_iff`).
-/

namespace InventoryGraph

theorem ObjectId.le_total (left right : ObjectId) : left ≤ right ∨ right ≤ left := by
  by_cases le : (compare left right).isLE = true
  · exact Or.inl le
  · right
    change (compare right left).isLE = true
    rw [Std.OrientedCmp.lt_of_not_isLE le]
    rfl

theorem ObjectId.le_antisymm {left right : ObjectId} (le : left ≤ right) (ge : right ≤ left) :
    left = right :=
  Std.LawfulEqOrd.eq_of_compare (Std.OrientedCmp.isLE_antisymm le ge)

namespace Edge

/-- The edge between two objects, with the smaller one as its source. -/
def join (label : Label) (left right : ObjectId) : Edge :=
  if left ≤ right then ⟨left, label, right⟩ else ⟨right, label, left⟩

theorem eq_join_iff {edge : Edge} {label : Label} {left right : ObjectId} :
    edge = join label left right ↔
      edge.label = label ∧ edge.source ≤ edge.target ∧
        ((edge.source = left ∧ edge.target = right) ∨
          (edge.source = right ∧ edge.target = left)) := by
  obtain ⟨source, edgeLabel, target⟩ := edge
  simp only [join]
  by_cases le : left ≤ right
  · rw [if_pos le, Edge.mk.injEq]
    constructor
    · rintro ⟨rfl, rfl, rfl⟩
      exact ⟨rfl, le, Or.inl ⟨rfl, rfl⟩⟩
    · rintro ⟨rfl, ge, ⟨rfl, rfl⟩ | ⟨rfl, rfl⟩⟩
      · exact ⟨rfl, rfl, rfl⟩
      · have same := ObjectId.le_antisymm le ge
        exact ⟨same.symm, rfl, same⟩
  · rw [if_neg le, Edge.mk.injEq]
    constructor
    · rintro ⟨rfl, rfl, rfl⟩
      exact ⟨rfl, (ObjectId.le_total target source).resolve_left le, Or.inr ⟨rfl, rfl⟩⟩
    · rintro ⟨rfl, ge, ⟨rfl, rfl⟩ | ⟨rfl, rfl⟩⟩
      · exact absurd ge le
      · exact ⟨rfl, rfl, rfl⟩

theorem join_inj {label : Label} {center left right : ObjectId} :
    join label center left = join label center right ↔ left = right := by
  constructor
  · intro same
    obtain ⟨_, _, ends⟩ := eq_join_iff.mp same
    obtain ⟨_, _, own⟩ := eq_join_iff.mp (rfl : join label center left = join label center left)
    grind
  · rintro rfl
    rfl

end Edge

/-! ## Stars -/

/-- The edges between an object and some others. -/
def star (label : Label) (center : ObjectId) (others : IdSet) : Finset Edge :=
  (others.toList.map (Edge.join label center)).toFinset

theorem mem_star_iff_exists {label : Label} {center : ObjectId} {others : IdSet} {edge : Edge} :
    edge ∈ star label center others ↔ ∃ x ∈ others, edge = Edge.join label center x := by
  simp only [star, List.mem_toFinset, List.mem_map, Std.ExtTreeSet.mem_toList]
  constructor <;> rintro ⟨x, member, rfl⟩ <;> exact ⟨x, member, rfl⟩

theorem mem_star_iff {label : Label} {center : ObjectId} {others : IdSet} {edge : Edge} :
    edge ∈ star label center others ↔
      edge.label = label ∧ edge.source ≤ edge.target ∧
        Between center others edge.source edge.target := by
  simp only [mem_star_iff_exists, Edge.eq_join_iff]
  constructor
  · rintro ⟨x, member, same, le, ⟨rfl, rfl⟩ | ⟨rfl, rfl⟩⟩
    · exact ⟨same, le, Or.inl ⟨rfl, member⟩⟩
    · exact ⟨same, le, Or.inr ⟨member, rfl⟩⟩
  · rintro ⟨same, le, ⟨left, member⟩ | ⟨member, right⟩⟩
    · exact ⟨_, member, same, le, Or.inl ⟨left, rfl⟩⟩
    · exact ⟨_, member, same, le, Or.inr ⟨rfl, right⟩⟩

/-- A star has an edge for each of the others. -/
theorem card_star (label : Label) (center : ObjectId) (others : IdSet) :
    (star label center others).card = others.size := by
  rw [star, List.toFinset_card_of_nodup, List.length_map, Std.ExtTreeSet.length_toList]
  exact others.nodup_toList.map fun _ _ => Edge.join_inj.mp

namespace Adjacency

variable {edges : Adjacency}

/-! ## Stars in a symmetric adjacency -/

theorem mem_edgeSet_join_iff (symmetric : edges.Symmetric) {label : Label}
    {left right : ObjectId} :
    Edge.join label left right ∈ edges.edgeSet ↔ right ∈ edges.neighbours left label := by
  obtain ⟨same, le, ends⟩ :=
    Edge.eq_join_iff.mp (rfl : Edge.join label left right = Edge.join label left right)
  rw [mem_edgeSet_iff, same]
  rcases ends with ⟨source, target⟩ | ⟨source, target⟩
  · rw [source, target] at le ⊢
    exact and_iff_right le
  · rw [source, target] at le ⊢
    exact ⟨fun member => symmetric right left label member.2,
      fun member => ⟨le, symmetric left right label member⟩⟩

theorem star_sdiff_edgeSet (symmetric : edges.Symmetric) (label : Label) (center : ObjectId)
    (others : IdSet) :
    star label center others \ edges.edgeSet =
      star label center (others \ edges.neighbours center label) := by
  ext edge
  simp only [Finset.mem_sdiff, mem_star_iff_exists, Std.ExtTreeSet.mem_diff_iff]
  constructor
  · rintro ⟨⟨x, member, rfl⟩, absent⟩
    rw [mem_edgeSet_join_iff symmetric] at absent
    exact ⟨x, ⟨member, absent⟩, rfl⟩
  · rintro ⟨x, ⟨member, absent⟩, rfl⟩
    rw [mem_edgeSet_join_iff symmetric]
    exact ⟨⟨x, member, rfl⟩, absent⟩

theorem star_inter_edgeSet (symmetric : edges.Symmetric) (label : Label) (center : ObjectId)
    (others : IdSet) :
    star label center others ∩ edges.edgeSet =
      star label center (others ∩ edges.neighbours center label) := by
  ext edge
  simp only [Finset.mem_inter, mem_star_iff_exists, Std.ExtTreeSet.mem_inter_iff]
  constructor
  · rintro ⟨⟨x, member, rfl⟩, present⟩
    rw [mem_edgeSet_join_iff symmetric] at present
    exact ⟨x, ⟨member, present⟩, rfl⟩
  · rintro ⟨x, ⟨member, present⟩, rfl⟩
    rw [mem_edgeSet_join_iff symmetric]
    exact ⟨⟨x, member, rfl⟩, present⟩

/-- Symmetric adjacencies have the same edges exactly when they have the same
snapshot. -/
theorem edgeSet_eq_iff {first second : Adjacency} (firstSymmetric : first.Symmetric)
    (secondSymmetric : second.Symmetric) :
    first.edgeSet = second.edgeSet ↔ first.snapshot = second.snapshot := by
  rw [snapshot_eq_iff]
  constructor
  · intro same id label
    apply Std.ExtTreeSet.ext_mem
    intro x
    rw [← mem_edgeSet_join_iff firstSymmetric, same, mem_edgeSet_join_iff secondSymmetric]
  · intro same
    ext edge
    rw [mem_edgeSet_iff, mem_edgeSet_iff, same]

end Adjacency

end InventoryGraph
