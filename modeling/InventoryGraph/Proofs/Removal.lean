import InventoryGraph.Adjacency.Listing
import InventoryGraph.Adjacency.Parting
import InventoryGraph.Proofs.Accounting
import InventoryGraph.Proofs.Backing
import InventoryGraph.Proofs.Tidy

/-!
# Removing several sources

A removal only parts pairs, and parting commutes, so the order in which sources are
removed does not show in the graph that is left (`run_removals_eq_of_perm`).  It does
show in the tallies: an edge that two sources have reported is charged to the one
that goes first.  But the tallies balance the number of edges, so the edges removed
sum up to the same (`edgeCount_run_removals`).

Every edge has a last report behind it, so none outlives the removal of all sources
that have one, and a pruned graph then stores nothing (`Drained`).
-/

namespace InventoryGraph

namespace Adjacency

/-- Withdrawing last reports of two sources commutes. -/
theorem commute_withdraw (prune : Bool) (first second : ObjectId) (firstRow secondRow : Row) :
    Function.Commute
      (fun edges : Adjacency => firstRow.foldl
        (fun edges label targets => edges.unlinkAll prune first label targets) edges)
      (fun edges => secondRow.foldl
        (fun edges label targets => edges.unlinkAll prune second label targets) edges) := by
  simp only [Std.ExtTreeMap.foldl_eq_foldl_toList]
  apply commute_foldl
  intro entry _
  apply Function.Commute.symm
  apply commute_foldl
  intro other _
  exact commute_unlinkAll prune second entry.1 first other.1 entry.2 other.2

theorem eraseRow_comm (edges : Adjacency) (first second : ObjectId) :
    (edges.eraseRow first).eraseRow second = (edges.eraseRow second).eraseRow first := by
  apply Adjacency.ext
  apply Std.ExtTreeMap.ext_getElem?
  intro id
  simp only [eraseRow, Std.ExtTreeMap.getElem?_erase]
  split <;> simp

theorem edgeCount_eq_zero_of_neighbours {edges : Adjacency}
    (vacant : ∀ id label, edges.neighbours id label = ∅) : edges.edgeCount = 0 := by
  rw [edgeCount_eq_card, Finset.card_eq_zero, Finset.eq_empty_iff_forall_notMem]
  intro edge member
  have joined := (mem_edgeSet_iff.mp member).2
  simp [vacant] at joined

end Adjacency

namespace Graph

variable {graph : Graph}

/-! ## Two removals -/

/-- It does not matter which of two sources is removed first. -/
theorem remove_comm (graph : Graph) (first second : ObjectId) :
    ((graph.remove first).graph.remove second).graph =
      ((graph.remove second).graph.remove first).graph := by
  by_cases same : first = second
  · rw [same]
  · have comm := Adjacency.commute_withdraw graph.settings.prune second first
      (graph.reports.row second) (graph.reports.row first) graph.edges
    simp only [remove, Adjacency.row_eraseRow, if_neg same, if_neg (Ne.symm same),
      Adjacency.eraseRow_comm graph.reports first second, comm]

/-! ## The edges removed -/

/-- A removal counts the edges that go. -/
theorem edgeCount_remove (symmetric : graph.edges.Symmetric) (tidy : graph.TidyReports)
    (source : ObjectId) :
    (graph.remove source).graph.edges.edgeCount + (graph.remove source).tally.removed =
      graph.edges.edgeCount := by
  have balanced : Balanced graph (graph.remove source) := by
    rw [remove_eq_update tidy]
    exact balanced_update symmetric source _
  rw [balanced.edgeCount, (skipped_and_added_remove graph source).2, Nat.add_zero]

/-- The tally of a whole history. -/
def total (graph : Graph) : List Change → Tally
  | [] => {}
  | change :: rest => (graph.change change).tally + (graph.change change).graph.total rest

/-- Removals count, all in all, the edges that go. -/
theorem edgeCount_run_removals (symmetric : graph.edges.Symmetric)
    (tidy : graph.TidyReports) (sources : List ObjectId) :
    (graph.run (sources.map .remove)).edges.edgeCount +
        (graph.total (sources.map .remove)).removed =
      graph.edges.edgeCount := by
  induction sources generalizing graph with
  | nil => rfl
  | cons source rest ih =>
      have first := edgeCount_remove symmetric tidy source
      have later := ih (symmetric_remove symmetric source)
        (tidyReports_invariant.remove graph source tidy)
      rw [List.map_cons, run_cons, total, Tally.removed_add]
      simp only [change]
      omega

/-! ## The graph that is left -/

/-- The order in which sources are removed does not show. -/
theorem run_removals_eq_of_perm (graph : Graph) {first second : List ObjectId}
    (perm : first.Perm second) :
    graph.run (first.map .remove) = graph.run (second.map .remove) := by
  simp only [run, List.foldl_map, change]
  exact perm.foldl_eq' (fun left _ right _ graph => remove_comm graph left right) graph

/-- The sources that are removed have no last report, and those of others stay. -/
theorem lastReport_run_removals (graph : Graph) (sources : List ObjectId) (id : ObjectId)
    (label : Label) :
    (graph.run (sources.map .remove)).lastReport id label =
      if id ∈ sources then ∅ else graph.lastReport id label := by
  induction sources generalizing graph with
  | nil => simp
  | cons source rest ih =>
      rw [List.map_cons, run_cons, ih]
      simp only [change, lastReport_remove, List.mem_cons]
      grind

/-- No edge and no last report is left, and where the graph is pruned nothing is
stored of what there was. -/
structure Drained (graph : Graph) : Prop where
  neighbours : ∀ id label, graph.neighbours id label = ∅
  edgeCount : graph.edges.edgeCount = 0
  reports : graph.reports = .empty
  edges : graph.settings.prune = true → graph.edges = .empty

/-- Without last reports there is nothing. -/
theorem drained_run_of_lastReport (settings : Settings) {changes : List Change}
    (silent : ∀ source label, ((fresh settings).run changes).lastReport source label = ∅) :
    Drained ((fresh settings).run changes) := by
  have neighbours : ∀ id label, ((fresh settings).run changes).neighbours id label = ∅ := by
    intro id label
    apply Std.ExtTreeSet.ext_mem
    intro x
    simp only [Std.ExtTreeSet.not_mem_empty, iff_false]
    intro member
    have backing := backed_run settings changes id label x member
    simp [silent] at backing
  have stored := tidyReports_run settings changes
  have tidy := tidy_run settings changes
  refine ⟨neighbours, Adjacency.edgeCount_eq_zero_of_neighbours neighbours,
    Adjacency.eq_empty_of_neighbours stored.rows stored.entries silent, fun pruned => ?_⟩
  rw [settings_run] at pruned
  exact Adjacency.eq_empty_of_neighbours tidy.rows (tidy.entries pruned) neighbours

/-- After every history, whatever the order in which some sources are removed, the
graph that is left is the same, in what it stores too, and so is the number of edges
removed in all.  If every source that has a last report is among them, no edge is
left, and in a pruned graph nothing is stored. -/
theorem removals_commute_and_drain (settings : Settings) (changes : List Change)
    {first second : List ObjectId} (perm : first.Perm second) :
    ((fresh settings).run changes).run (first.map .remove) =
      ((fresh settings).run changes).run (second.map .remove) ∧
    (((fresh settings).run changes).total (first.map .remove)).removed =
      (((fresh settings).run changes).total (second.map .remove)).removed ∧
    ((∀ source label, ((fresh settings).run changes).lastReport source label ≠ ∅ →
        source ∈ first) →
      Drained (((fresh settings).run changes).run (first.map .remove))) := by
  have symmetric := symmetric_run (symmetric_fresh settings) changes
  have tidy := tidyReports_run settings changes
  have same := run_removals_eq_of_perm ((fresh settings).run changes) perm
  refine ⟨same, ?removed, ?drained⟩
  case removed =>
    have one := edgeCount_run_removals symmetric tidy first
    have other := edgeCount_run_removals symmetric tidy second
    rw [same] at one
    omega
  case drained =>
    intro live
    rw [← run_append]
    apply drained_run_of_lastReport
    intro source label
    rw [run_append, lastReport_run_removals]
    split
    · rfl
    · rename_i spared
      exact not_not.mp fun reported => spared (live source label reported)

/-- The deployment and its pod, which have reported each other, are removed. -/
theorem drained_of_eachOther :
    [Example.web, Example.pod].Perm [Example.pod, Example.web] ∧
    (∀ source label, ((fresh {}).run Example.eachOther).lastReport source label ≠ ∅ →
      source ∈ [Example.web, Example.pod]) ∧
    ((fresh {}).run Example.eachOther).run ([Example.web, Example.pod].map .remove) =
      ((fresh {}).run Example.eachOther).run ([Example.pod, Example.web].map .remove) ∧
    (((fresh {}).run Example.eachOther).total
        ([Example.web, Example.pod].map .remove)).removed =
      (((fresh {}).run Example.eachOther).total
        ([Example.pod, Example.web].map .remove)).removed ∧
    Drained (((fresh {}).run Example.eachOther).run
      ([Example.web, Example.pod].map .remove)) := by
  have perm : [Example.web, Example.pod].Perm [Example.pod, Example.web] := .swap _ _ _
  have sources : ((fresh {}).run Example.eachOther).reports.ids = [Example.pod, Example.web] := by
    decide +kernel
  have live : ∀ source label,
      ((fresh {}).run Example.eachOther).lastReport source label ≠ ∅ →
        source ∈ [Example.web, Example.pod] := by
    intro source label reported
    rw [perm.mem_iff, ← sources, Adjacency.mem_ids_iff]
    exact ⟨label, reported⟩
  obtain ⟨same, removed, drained⟩ := removals_commute_and_drain {} Example.eachOther perm
  exact ⟨perm, live, same, removed, drained live⟩

-- The edge between the two is charged to the one that goes first.
example :
    let graph := (fresh {}).run Example.eachOther
    (graph.remove Example.web).tally.removed = 1 ∧
      ((graph.remove Example.pod).graph.remove Example.web).tally.removed = 0 := by
  decide +kernel

end Graph

end InventoryGraph
