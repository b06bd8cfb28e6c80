import InventoryGraph.Adjacency.Extensional
import InventoryGraph.Proofs.Change

/-!
# How edges are stored

A graph stores no row without entries, and, where it is pruned, no empty entry
(`tidy_run`).  Entries are made only to take an object in, and the steps that take
objects out drop what they leave empty.  So the edges of a pruned graph are
determined by who is joined with whom, and without edges nothing is stored at all
(`eq_empty_of_neighbours`).
-/

namespace InventoryGraph

namespace Adjacency

/-- Nothing is stored where nobody has others and nothing is stored empty. -/
theorem eq_empty_of_neighbours {edges : Adjacency} (rows : edges.NoEmptyRow)
    (entries : edges.NoEmptyEntry) (vacant : ∀ id label, edges.neighbours id label = ∅) :
    edges = .empty := by
  apply ext_find? rows noEmptyRow_empty
  intro id label
  rw [entries.find?_eq, noEmptyEntry_empty.find?_eq, if_pos (vacant id label),
    if_pos (neighbours_empty id label)]

/-- Adjacencies are stored without empty rows and, where pruned, without empty
entries. -/
structure Tidy (prune : Bool) (edges : Adjacency) : Prop where
  rows : edges.NoEmptyRow
  entries : prune = true → edges.NoEmptyEntry

namespace Tidy

variable {prune : Bool} {edges : Adjacency}

protected theorem empty : Tidy prune .empty :=
  ⟨noEmptyRow_empty, fun _ => noEmptyEntry_empty⟩

theorem link (tidy : Tidy prune edges) (left : ObjectId) (label : Label) (right : ObjectId) :
    Tidy prune (edges.link left label right) :=
  ⟨noEmptyRow_link tidy.rows left label right,
    fun pruned => noEmptyEntry_link (tidy.entries pruned) left label right⟩

theorem linkAll (tidy : Tidy prune edges) (id : ObjectId) (label : Label) (targets : IdSet) :
    Tidy prune (edges.linkAll id label targets) := by
  rw [Adjacency.linkAll, Std.ExtTreeSet.foldl_eq_foldl_toList]
  exact List.foldlRecOn _ _ tidy fun _ tidy target _ => tidy.link id label target

/-- An entry that has lost its last object is dropped where pruned. -/
theorem detach (tidy : Tidy prune edges) (id : ObjectId) (label : Label) (target : ObjectId) :
    Tidy prune (edges.detach prune id label target) := by
  refine ⟨noEmptyRow_alter tidy.rows id label _, ?_⟩
  rintro rfl otherId otherLabel
  rw [Adjacency.detach, find?_alter]
  split
  · cases edges.find? id label with
    | none => simp
    | some entry =>
        by_cases vacant : entry.erase target = ∅
        · simp [vacant]
        · simp [vacant]
  · exact tidy.entries rfl otherId otherLabel

theorem unlink (tidy : Tidy prune edges) (left : ObjectId) (label : Label) (right : ObjectId) :
    Tidy prune (edges.unlink prune left label right) :=
  (tidy.detach left label right).detach right label left

theorem unlinkAll (tidy : Tidy prune edges) (id : ObjectId) (label : Label)
    (targets : IdSet) : Tidy prune (edges.unlinkAll prune id label targets) := by
  rw [Adjacency.unlinkAll, Std.ExtTreeSet.foldl_eq_foldl_toList]
  exact List.foldlRecOn _ _ tidy fun _ tidy target _ => tidy.unlink id label target

end Tidy

end Adjacency

namespace Graph

/-! ## Histories -/

theorem tidy_invariant :
    Invariant (fun _ _ => True) fun graph => graph.edges.Tidy graph.settings.prune where
  apply _ source report _ tidy :=
    (tidy.unlinkAll source report.label _).linkAll source report.label report.targets
  remove graph source tidy := by
    simp only [remove, Std.ExtTreeMap.foldl_eq_foldl_toList]
    exact List.foldlRecOn _ _ tidy fun _ tidy entry _ => tidy.unlinkAll source entry.1 entry.2
  clear _ _ := .empty

/-- The edges are stored tidily after every history. -/
theorem tidy_run (settings : Settings) (changes : List Change) :
    ((fresh settings).run changes).edges.Tidy settings.prune := by
  have before : (fresh settings).edges.Tidy (fresh settings).settings.prune := .empty
  have after := tidy_invariant.run_always before changes
  rwa [settings_run] at after

end Graph

end InventoryGraph
