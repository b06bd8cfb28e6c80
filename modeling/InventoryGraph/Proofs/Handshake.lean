import InventoryGraph.Adjacency.Listing
import InventoryGraph.Proofs.Star
import Mathlib.Algebra.BigOperators.Group.Finset.Sigma
import Mathlib.Data.Sym.Sym2

/-!
# Each edge is listed once

The edges of a graph lie at both their ends, and a list of edges keeps the copy at the
smaller end.  As the order of ids is total, one copy of each edge is kept, and as no two
different ids are both smaller than the other, only one is: every pair of neighbours under
a label, in either order, is listed as one edge (`ListsOnce`).

Seen from each of its ends, an edge is counted twice, and an edge from an object to itself
once.  So the sizes of all sets of neighbours, with the loops once more, sum up to twice the
number of edges (`degreeSum_add_card_loops`).
-/

namespace InventoryGraph

namespace Edge

/-- The two ends of an edge, in no order. -/
def ends (edge : Edge) : Sym2 ObjectId :=
  s(edge.source, edge.target)

/-- The edge seen from its other end. -/
def flip (edge : Edge) : Edge :=
  ⟨edge.target, edge.label, edge.source⟩

theorem flip_flip (edge : Edge) : edge.flip.flip = edge :=
  rfl

theorem flip_injective : Function.Injective flip :=
  Function.LeftInverse.injective flip_flip

/-- An edge with its smaller end first is told by its label and its ends. -/
theorem eq_join_iff_ends {edge : Edge} (ordered : edge.source ≤ edge.target) {label : Label}
    {left right : ObjectId} :
    edge = join label left right ↔ edge.label = label ∧ edge.ends = s(left, right) := by
  rw [eq_join_iff, ends, Sym2.eq_iff, and_iff_right ordered]

end Edge

namespace Adjacency

variable {edges : Adjacency}

/-! ## The list of edges -/

/-- A list has each edge of an adjacency once, with its smaller end first. -/
structure ListsOnce (edges : Adjacency) (list : List Edge) : Prop where
  /-- Two objects have one edge if they are neighbours, and none if they are not. -/
  once : ∀ label left right,
    (list.countP fun edge => edge.label = label ∧ edge.ends = s(left, right)) =
      if right ∈ edges.neighbours left label then 1 else 0
  ordered : ∀ edge ∈ list, edge.source ≤ edge.target

/-- Where edges lie at both ends, a list of all of them without repetition has each once. -/
theorem listsOnce_of_mem_iff (symmetric : edges.Symmetric) {list : List Edge}
    (nodup : list.Nodup) (mem_iff : ∀ edge, edge ∈ list ↔ edge ∈ edges.edgeSet) :
    edges.ListsOnce list where
  ordered edge member := (mem_edgeSet_iff.mp ((mem_iff edge).mp member)).1
  once label left right := by
    have count_eq : (list.countP fun edge => edge.label = label ∧ edge.ends = s(left, right)) =
        list.count (Edge.join label left right) := by
      apply List.countP_congr
      intro edge member
      have ordered := (mem_edgeSet_iff.mp ((mem_iff edge).mp member)).1
      simp [Edge.eq_join_iff_ends ordered]
    have listed : Edge.join label left right ∈ list ↔ right ∈ edges.neighbours left label := by
      rw [mem_iff, mem_edgeSet_join_iff symmetric]
    rw [count_eq]
    split
    · rename_i joined
      exact List.count_eq_one_of_mem nodup (listed.mpr joined)
    · rename_i apart
      exact List.count_eq_zero.mpr fun member => apart (listed.mp member)

theorem mem_undirected_snapshot_iff {edge : Edge} :
    edge ∈ edges.snapshot.undirected ↔ edge ∈ edges.edgeSet := by
  rw [← edgeSet_snapshot, edgeSet, List.mem_toFinset]

/-! ## The sizes of all sets of neighbours -/

/-- How many neighbours all objects have under all labels.  What is left out of the sums has
none. -/
def degreeSum (edges : Adjacency) : Nat :=
  ∑ id ∈ edges.ids.toFinset, ∑ label ∈ (edges.labels id).toFinset,
    (edges.neighbours id label).size

/-- The edges from an object to itself. -/
def loops (edges : Adjacency) : Finset Edge :=
  edges.edgeSet.filter fun edge => edge.source = edge.target

/-- The edges, each as it is seen from either of its ends. -/
def arcs (edges : Adjacency) : Finset Edge :=
  (edges.ids.toFinset.sigma fun id => (edges.labels id).toFinset.sigma fun label =>
    (edges.neighbours id label).toList.toFinset).image
      fun arc => ⟨arc.1, arc.2.1, arc.2.2⟩

theorem mem_arcs_iff {edge : Edge} :
    edge ∈ edges.arcs ↔ edge.target ∈ edges.neighbours edge.source edge.label := by
  obtain ⟨source, label, target⟩ := edge
  have stored : target ∈ edges.neighbours source label →
      edges.neighbours source label ≠ ∅ := by
    rintro member vacant
    simp [vacant] at member
  simp only [arcs, Finset.mem_image, Finset.mem_sigma, List.mem_toFinset, mem_ids_iff,
    mem_labels_iff, Std.ExtTreeSet.mem_toList, Edge.mk.injEq]
  constructor
  · rintro ⟨⟨_, _, _⟩, ⟨_, _, member⟩, rfl, rfl, rfl⟩
    exact member
  · intro member
    exact ⟨⟨source, label, target⟩, ⟨⟨label, stored member⟩, stored member, member⟩, rfl, rfl, rfl⟩

theorem card_arcs (edges : Adjacency) : edges.arcs.card = edges.degreeSum := by
  rw [arcs, Finset.card_image_of_injective]
  · simp [Finset.card_sigma, degreeSum, List.toFinset_card_of_nodup, IdSet.nodup_toList]
  · rintro ⟨_, _, _⟩ ⟨_, _, _⟩ same
    obtain ⟨rfl, rfl, rfl⟩ := Edge.mk.inj same
    rfl

theorem mem_image_flip_iff {edge : Edge} :
    edge ∈ edges.edgeSet.image Edge.flip ↔ edge.flip ∈ edges.edgeSet := by
  rw [Finset.mem_image]
  constructor
  · rintro ⟨other, member, rfl⟩
    exact member
  · exact fun member => ⟨edge.flip, member, edge.flip_flip⟩

/-- Every arc is an edge, or an edge seen from its other end. -/
theorem arcs_eq_union (symmetric : edges.Symmetric) :
    edges.arcs = edges.edgeSet ∪ edges.edgeSet.image Edge.flip := by
  ext edge
  rw [Finset.mem_union, mem_image_flip_iff, mem_arcs_iff, mem_edgeSet_iff, mem_edgeSet_iff]
  constructor
  · intro member
    rcases ObjectId.le_total edge.source edge.target with le | ge
    · exact Or.inl ⟨le, member⟩
    · exact Or.inr ⟨ge, symmetric _ _ _ member⟩
  · rintro (⟨_, member⟩ | ⟨_, member⟩)
    · exact member
    · exact symmetric _ _ _ member

/-- Only loops look the same from both ends. -/
theorem edgeSet_inter_image_flip (edges : Adjacency) :
    edges.edgeSet ∩ edges.edgeSet.image Edge.flip = edges.loops := by
  ext edge
  rw [loops, Finset.mem_inter, Finset.mem_filter, mem_image_flip_iff]
  apply and_congr_right
  intro member
  constructor
  · intro flipped
    exact ObjectId.le_antisymm (mem_edgeSet_iff.mp member).1 (mem_edgeSet_iff.mp flipped).1
  · intro same
    obtain ⟨source, label, target⟩ := edge
    obtain rfl : source = target := same
    exact member

/-- Each edge is counted at both its ends, and a loop once. -/
theorem degreeSum_add_card_loops (symmetric : edges.Symmetric) :
    edges.degreeSum + edges.loops.card = 2 * edges.edgeCount := by
  rw [← card_arcs, arcs_eq_union symmetric, ← edgeSet_inter_image_flip,
    Finset.card_union_add_card_inter, Finset.card_image_of_injective _ Edge.flip_injective,
    ← edgeCount_eq_card, Nat.two_mul]

end Adjacency

/-- After every history, the edges listed of the snapshot are, for each label and each two
objects that are neighbours under it, one edge with the smaller object first, and no others;
they are as many as are counted; and the sizes of all sets of neighbours sum up to twice as
many, less the loops. -/
theorem Graph.undirected_run_lists_once (settings : Settings) (changes : List Change) :
    ((fresh settings).run changes).edges.ListsOnce
        ((fresh settings).run changes).snapshot.undirected ∧
    ((fresh settings).run changes).snapshot.undirected.length =
      ((fresh settings).run changes).edges.edgeCount ∧
    ((fresh settings).run changes).edges.degreeSum +
        ((fresh settings).run changes).edges.loops.card =
      2 * ((fresh settings).run changes).edges.edgeCount := by
  have symmetric := symmetric_run (symmetric_fresh settings) changes
  have listed := Adjacency.listsOnce_of_mem_iff symmetric
    (Adjacency.nodup_undirected ((fresh settings).run changes).snapshot)
    fun _ => Adjacency.mem_undirected_snapshot_iff
  have length_eq : ((fresh settings).run changes).snapshot.undirected.length =
      ((fresh settings).run changes).edges.edgeCount := by
    rw [← Adjacency.edgeCount_eq_length, snapshot, Adjacency.edgeCount_snapshot]
  exact ⟨listed, length_eq, Adjacency.degreeSum_add_card_loops symmetric⟩

-- A deployment and its pod, which also reports itself: two edges, one of them a loop.
example :
    let edges := ((Graph.fresh {}).run Example.eachOther).edges
    edges.degreeSum = 3 ∧ edges.loops.card = 1 ∧ edges.edgeCount = 2 := by
  decide +kernel

end InventoryGraph
