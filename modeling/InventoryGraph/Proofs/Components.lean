import InventoryGraph.Proofs.Links
import InventoryGraph.Proofs.Symmetry

/-!
# Components

Where edges lie at both ends, being connected along a label is an equivalence
(`Symmetric.equivalence_connected`), so what is reached from an object is its
component, the same from wherever in it the search starts
(`Symmetric.reach_eq_iff`).

The units of a graph are its components along the expansion label.  The links of an
object start from its unit, so all objects of a unit have the same links, each with
itself left out (`mem_links_iff_of_mem_unit`).
-/

namespace InventoryGraph

namespace Adjacency

variable {edges : Adjacency}

theorem mem_reach_singleton_iff {start x : ObjectId} {label : Label} :
    x ∈ edges.reach [start] label ↔ edges.Connected label start x := by
  simp [mem_reach_iff]

/-- A path can be walked back. -/
theorem Symmetric.connected_symm (symmetric : edges.Symmetric) {label : Label}
    {start x : ObjectId} (path : edges.Connected label start x) :
    edges.Connected label x start := by
  induction path with
  | refl => exact .refl
  | @tail middle last _ step ih => exact ih.head (symmetric middle last label step)

theorem Symmetric.equivalence_connected (symmetric : edges.Symmetric) (label : Label) :
    Equivalence (edges.Connected label) where
  refl _ := .refl
  symm path := symmetric.connected_symm path
  trans first second := first.trans second

/-- The same is reached from two objects exactly when one of them is reached from the
other. -/
theorem Symmetric.reach_eq_iff (symmetric : edges.Symmetric) {left right : ObjectId}
    {label : Label} :
    edges.reach [left] label = edges.reach [right] label ↔
      right ∈ edges.reach [left] label := by
  constructor
  · intro same
    rw [same, mem_reach_singleton_iff]
    exact .refl
  · intro member
    have component := symmetric.equivalence_connected label
    rw [mem_reach_singleton_iff] at member
    apply Std.ExtTreeSet.ext_mem
    intro x
    rw [mem_reach_singleton_iff, mem_reach_singleton_iff]
    constructor
    · exact component.trans (component.symm member)
    · exact component.trans member

end Adjacency

namespace Graph

variable {graph : Graph}

/-- An object and its links are what a path through the unit leads to. -/
theorem eq_or_mem_linked_iff {id x : ObjectId} {label : Label} :
    x = id ∨ x ∈ graph.linked id label ↔
      ∃ middle, graph.edges.Connected graph.settings.expansion id middle ∧
        graph.edges.Connected label middle x := by
  rw [mem_linked_iff]
  constructor
  · rintro (rfl | ⟨_, path⟩)
    · exact ⟨x, .refl, .refl⟩
    · exact path
  · intro path
    by_cases same : x = id
    · exact Or.inl same
    · exact Or.inr ⟨same, path⟩

/-- Two objects of a unit, each with its links, have the same objects. -/
theorem eq_or_mem_linked_congr (symmetric : graph.edges.Symmetric) {left right : ObjectId}
    (together : graph.edges.Connected graph.settings.expansion left right) (label : Label)
    (x : ObjectId) :
    x = left ∨ x ∈ graph.linked left label ↔ x = right ∨ x ∈ graph.linked right label := by
  have unit := symmetric.equivalence_connected graph.settings.expansion
  rw [eq_or_mem_linked_iff, eq_or_mem_linked_iff]
  constructor
  · rintro ⟨middle, first, second⟩
    exact ⟨middle, unit.trans (unit.symm together) first, second⟩
  · rintro ⟨middle, first, second⟩
    exact ⟨middle, unit.trans together first, second⟩

/-- Links of two objects of a unit are found for both, and they are the same but for
the objects themselves. -/
theorem mem_links_iff_of_mem_unit (symmetric : graph.edges.Symmetric) {left right : ObjectId}
    (together : right ∈ graph.unit left) (label : Label) :
    ∃ leftLinks rightLinks, graph.links left label = .ok leftLinks ∧
      graph.links right label = .ok rightLinks ∧
      ∀ x, x = left ∨ x ∈ leftLinks.flatten ↔ x = right ∨ x ∈ rightLinks.flatten := by
  rcases graph.exists_links left label with ⟨leftLinks, leftFound, leftListing⟩
  rcases graph.exists_links right label with ⟨rightLinks, rightFound, rightListing⟩
  refine ⟨leftLinks, rightLinks, leftFound, rightFound, fun x => ?_⟩
  rw [leftListing.mem_iff, rightListing.mem_iff]
  exact eq_or_mem_linked_congr symmetric (Adjacency.mem_reach_singleton_iff.mp together) label x

/-- After every history, an object is reached from another along a label exactly when
the other is reached from it, and then the same is reached from both.  If it is
reached along the expansion label, the two have the same links under every label,
each taken together with its links. -/
theorem reach_run_partitions (settings : Settings) (changes : List Change)
    (left right : ObjectId) :
    (∀ label,
      (right ∈ ((fresh settings).run changes).reach [left] label ↔
        left ∈ ((fresh settings).run changes).reach [right] label) ∧
      (right ∈ ((fresh settings).run changes).reach [left] label →
        ((fresh settings).run changes).reach [left] label =
          ((fresh settings).run changes).reach [right] label)) ∧
    (right ∈ ((fresh settings).run changes).reach [left] settings.expansion →
      ∀ label, ∃ leftLinks rightLinks,
        ((fresh settings).run changes).links left label = .ok leftLinks ∧
        ((fresh settings).run changes).links right label = .ok rightLinks ∧
        ∀ x, x = left ∨ x ∈ leftLinks.flatten ↔ x = right ∨ x ∈ rightLinks.flatten) := by
  have symmetric := symmetric_run (symmetric_fresh settings) changes
  refine ⟨fun label => ⟨?_, symmetric.reach_eq_iff.mpr⟩, fun together label => ?_⟩
  · rw [reach, reach, Adjacency.mem_reach_singleton_iff, Adjacency.mem_reach_singleton_iff]
    exact ⟨symmetric.connected_symm, symmetric.connected_symm⟩
  · have expansion : ((fresh settings).run changes).settings.expansion = settings.expansion := by
      rw [settings_run]
      rfl
    apply mem_links_iff_of_mem_unit symmetric
    rwa [unit, expansion]

/-- A deployment and its pod are one unit. -/
theorem unit_of_web_and_pod :
    Example.pod ∈ ((fresh {}).run Example.inTurns).reach [Example.web] .offshoot ∧
    ((fresh {}).run Example.inTurns).reach [Example.web] .offshoot =
      ((fresh {}).run Example.inTurns).reach [Example.pod] .offshoot ∧
    ∀ label, ∃ webLinks podLinks,
      ((fresh {}).run Example.inTurns).links Example.web label = .ok webLinks ∧
      ((fresh {}).run Example.inTurns).links Example.pod label = .ok podLinks ∧
      ∀ x, x = Example.web ∨ x ∈ webLinks.flatten ↔ x = Example.pod ∨ x ∈ podLinks.flatten := by
  have joined : Example.pod ∈
      ((fresh {}).run Example.inTurns).neighbours Example.web .offshoot := by
    decide +kernel
  have together : Example.pod ∈
      ((fresh {}).run Example.inTurns).reach [Example.web] .offshoot :=
    Adjacency.mem_reach_singleton_iff.mpr (.single joined)
  have partitions := reach_run_partitions {} Example.inTurns Example.web Example.pod
  exact ⟨together, (partitions.1 .offshoot).2 together, partitions.2 together⟩

end Graph

end InventoryGraph
