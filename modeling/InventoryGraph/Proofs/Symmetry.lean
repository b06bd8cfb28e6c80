import InventoryGraph.Proofs.Change

/-!
# Edges lie at both ends

Each edge is stored twice, in the entries of its two ends, and the two copies
are written and taken away by separate steps.  This file shows that the copies
agree after every history: reports and removals touch an edge whichever end they
come from, as `Between` does not depend on the order of its ends.
-/

namespace InventoryGraph

/-- Whoever is a neighbour has the other as a neighbour. -/
def Adjacency.Symmetric (edges : Adjacency) : Prop :=
  ∀ left right label,
    right ∈ edges.neighbours left label → left ∈ edges.neighbours right label

namespace Graph

variable {graph : Graph}

theorem symmetric_apply (symmetric : graph.edges.Symmetric) (source : ObjectId)
    (report : Report) : (graph.apply source report).1.edges.Symmetric := by
  intro left right label member
  rcases (mem_neighbours_apply graph source report left label right).mp member with
    ⟨same, listed⟩ | ⟨kept, old⟩
  · apply (mem_neighbours_apply graph source report right label left).mpr
    exact Or.inl ⟨same, Between.comm.mp listed⟩
  · apply (mem_neighbours_apply graph source report right label left).mpr
    have kept' : ¬(label = report.label ∧
        Between source (graph.lastReport source report.label \ report.targets) right left) := by
      rintro ⟨same, withdrawn⟩
      exact kept ⟨same, Between.comm.mp withdrawn⟩
    exact Or.inr ⟨kept', symmetric left right label old⟩

theorem symmetric_remove (symmetric : graph.edges.Symmetric) (source : ObjectId) :
    (graph.remove source).graph.edges.Symmetric := by
  intro left right label member
  rcases (mem_neighbours_remove graph source left label right).mp member with ⟨kept, old⟩
  apply (mem_neighbours_remove graph source right label left).mpr
  exact ⟨fun reported => kept (Between.comm.mp reported), symmetric left right label old⟩

theorem symmetric_fresh (settings : Settings) : (fresh settings).edges.Symmetric := by
  intro left right label member
  simp [fresh] at member

theorem symmetric_invariant :
    Invariant (fun _ _ => True) (fun graph => graph.edges.Symmetric) where
  apply _ source report _ symmetric := symmetric_apply symmetric source report
  remove _ source symmetric := symmetric_remove symmetric source
  clear graph _ := symmetric_fresh graph.settings

/-- The edges stay symmetric over any history. -/
theorem symmetric_run (symmetric : graph.edges.Symmetric) (changes : List Change) :
    (graph.run changes).edges.Symmetric :=
  symmetric_invariant.run_always symmetric changes

/-- After every history, under all settings, an object is a neighbour of another
exactly when the other is a neighbour of it. -/
theorem mem_neighbours_run_comm (settings : Settings) (changes : List Change)
    (left right : ObjectId) (label : Label) :
    right ∈ ((fresh settings).run changes).neighbours left label ↔
      left ∈ ((fresh settings).run changes).neighbours right label := by
  have symmetric := symmetric_run (symmetric_fresh settings) changes
  constructor
  · exact symmetric left right label
  · exact symmetric right left label

end Graph

end InventoryGraph
