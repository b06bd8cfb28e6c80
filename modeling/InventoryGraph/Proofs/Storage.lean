import InventoryGraph.Adjacency.InPlace
import InventoryGraph.Proofs.Tidy
import InventoryGraph.Proofs.Withdrawal

/-!
# What a graph stores

A graph can be changed in place: entries of edges are opened to put objects in and dropped
when the last object is taken out, entries of last reports are recorded or forgotten, and a
source that is removed takes its row of last reports along.  On a graph that is stored
tidily the changes in place are the changes of the graph, and the outcomes are the same
(`InPlace.change_eq`).  Changes leave a graph tidy, so whole histories are the same too
(`InPlace.run_eq`).

Whatever the settings, no last report is stored empty, nor is any row; in a pruned graph an
object has a row of edges exactly if it has an edge (`nothing_empty_stored`).  A graph that
is not pruned keeps entries of edges that have become empty.
-/

namespace InventoryGraph

/-- Where nothing is stored empty, a row is stored for an object that has an edge, and for
no other. -/
theorem Adjacency.mem_rows_iff {edges : Adjacency} (rows : edges.NoEmptyRow)
    (entries : edges.NoEmptyEntry) {id : ObjectId} :
    id ∈ edges.rows ↔ ∃ label x, x ∈ edges.neighbours id label := by
  rw [← Std.ExtTreeMap.mem_keys, ← ids_eq_keys rows entries, mem_ids_iff]
  apply exists_congr
  intro label
  rw [Ne, Std.ExtTreeSet.eq_empty_iff_forall_not_mem, not_forall_not]

namespace Graph

namespace InPlace

open Adjacency.InPlace

/-! ## The changes -/

/-- Applies one report of a source. -/
def apply (graph : Graph) (source : ObjectId) (report : Report) : Graph × Outcome :=
  let withdrawn :=
    match graph.reports.find? source report.label with
    | none => ∅
    | some last => last \ report.targets
  let (edges, removed) :=
    unlinkEach graph.settings.prune graph.edges source report.label withdrawn
  let (edges, added) := linkEach edges source report.label report.targets
  let reports :=
    if report.targets.isEmpty then forget graph.reports source report.label
    else record graph.reports source report.label report.targets
  ({ graph with edges := edges, reports := reports },
    .applied withdrawn.size report.targets.size added removed)

/-- Takes one report of a source, and applies it unless the settings say to skip it. -/
def receive (graph : Graph) (source : ObjectId) (report : Report) : Graph × Outcome :=
  if graph.settings.skip.skips (graph.reports.find? source report.label) report.targets then
    (graph, .skipped)
  else
    apply graph source report

/-- Takes the reports of a source one after the other. -/
def update (graph : Graph) (source : ObjectId) : List Report → Applied
  | [] => ⟨graph, []⟩
  | report :: rest =>
      let (graph, outcome) := receive graph source report
      let applied := update graph source rest
      ⟨applied.graph, (report.label, outcome) :: applied.outcomes⟩

/-- Parts a source from its last reports, one after the other. -/
def withdraw (prune : Bool) (edges : Adjacency) (source : ObjectId) :
    List (Label × IdSet) → Adjacency × List (Label × Outcome)
  | [] => (edges, [])
  | (label, last) :: rest =>
      let (edges, removed) := unlinkEach prune edges source label last
      let (edges, outcomes) := withdraw prune edges source rest
      (edges, (label, .applied last.size 0 0 removed) :: outcomes)

/-- Takes the last reports of a source out, if it has any, and withdraws them. -/
def remove (graph : Graph) (source : ObjectId) : Applied :=
  match graph.reports.rows[source]? with
  | none => ⟨graph, []⟩
  | some last =>
      let (edges, outcomes) :=
        withdraw graph.settings.prune graph.edges source last.toList
      ⟨{ graph with edges := edges, reports := graph.reports.eraseRow source }, outcomes⟩

/-- Makes a change. -/
def change (graph : Graph) : Change → Applied
  | .update source reports => update graph source reports
  | .remove source => remove graph source
  | .clear => ⟨graph.clear, []⟩

/-- The graph after some changes. -/
def run (graph : Graph) (changes : List Change) : Graph :=
  changes.foldl (fun graph made => (change graph made).graph) graph

/-! ## They are the changes of the graph -/

variable {graph : Graph}

theorem apply_eq (rows : graph.edges.NoEmptyRow) (source : ObjectId) (report : Report) :
    apply graph source report = graph.apply source report := by
  have withdrawn :
      (match graph.reports.find? source report.label with
        | none => ∅
        | some last => last \ report.targets) =
      graph.reports.neighbours source report.label \ report.targets := by
    rw [Adjacency.neighbours]
    cases graph.reports.find? source report.label with
    | none => exact (IdSet.empty_diff _).symm
    | some last => rfl
  -- The edges removed before are none of those to the objects that are listed.
  have before : report.targets \
      (graph.edges.unlinkAll graph.settings.prune source report.label
        (graph.reports.neighbours source report.label \ report.targets)).neighbours source
          report.label =
      report.targets \ graph.edges.neighbours source report.label := by
    apply Std.ExtTreeSet.ext_mem
    intro x
    simp only [Std.ExtTreeSet.mem_diff_iff, Adjacency.mem_neighbours_unlinkAll]
    grind
  have reports :
      (if report.targets.isEmpty then forget graph.reports source report.label
        else record graph.reports source report.label report.targets) =
      graph.reports.assign source report.label report.targets := by
    split
    · rename_i vacant
      rw [forget_eq, Std.ExtTreeSet.isEmpty_iff.mp vacant]
    · rename_i occupied
      apply record_eq
      rwa [Std.ExtTreeSet.isEmpty_iff] at occupied
  simp only [apply, Graph.apply, withdrawn, unlinkEach_eq _ rows, linkEach_eq,
    before, reports]

theorem receive_eq (rows : graph.edges.NoEmptyRow) (source : ObjectId) (report : Report) :
    receive graph source report = graph.receive source report := by
  rw [receive, Graph.receive, apply_eq rows]

theorem update_eq (tidy : graph.edges.Tidy graph.settings.prune) (source : ObjectId)
    (reports : List Report) : update graph source reports = graph.update source reports := by
  induction reports generalizing graph with
  | nil => rfl
  | cons report rest ih =>
      have kept : (graph.receive source report).1.edges.Tidy
          (graph.receive source report).1.settings.prune :=
        tidy_invariant.receive tidy trivial
      simp only [update, receive_eq tidy.rows, update_cons, ih kept]

theorem withdraw_eq (prune : Bool) {edges : Adjacency} (tidy : edges.Tidy prune)
    (source : ObjectId) {entries : List (Label × IdSet)}
    (distinct : (entries.map Prod.fst).Nodup) :
    withdraw prune edges source entries =
      (entries.foldl (fun edges entry => edges.unlinkAll prune source entry.1 entry.2) edges,
        entries.map fun entry =>
          (entry.1, .applied entry.2.size 0 0
            (entry.2 ∩ edges.neighbours source entry.1).size)) := by
  induction entries generalizing edges with
  | nil => rfl
  | cons entry rest ih =>
      obtain ⟨label, last⟩ := entry
      rw [List.map_cons, List.nodup_cons] at distinct
      simp only [withdraw, unlinkEach_eq prune tidy.rows,
        ih (tidy.unlinkAll source label last) distinct.2, List.foldl_cons, List.map_cons,
        Prod.mk.injEq, List.cons.injEq, true_and]
      -- Withdrawing under one label does not bear on the outcomes under the others.
      apply List.map_congr_left
      intro entry member
      have other : label ≠ entry.1 := by
        intro same
        exact distinct.1 (List.mem_map.mpr ⟨entry, member, same.symm⟩)
      rw [Adjacency.neighbours_unlinkAll_of_ne _ _ _ other]

theorem remove_eq (tidy : graph.edges.Tidy graph.settings.prune) (source : ObjectId) :
    remove graph source = graph.remove source := by
  rw [remove, Graph.remove, Adjacency.row]
  cases stored : graph.reports.rows[source]? with
  | none =>
      have kept : graph.reports.eraseRow source = graph.reports :=
        Adjacency.ext (erase_of_getElem?_eq_none stored)
      have nothing : (∅ : Row).toList = [] := Std.ExtTreeMap.toList_eq_nil_iff.mpr rfl
      simp [kept, Std.ExtTreeMap.foldl_eq_foldl_toList, nothing]
  | some last =>
      simp only [withdraw_eq _ tidy source (nodup_labels_row last), Option.getD_some,
        Std.ExtTreeMap.foldl_eq_foldl_toList]

theorem change_eq (tidy : graph.edges.Tidy graph.settings.prune) (made : Change) :
    change graph made = graph.change made := by
  cases made with
  | update source reports => exact update_eq tidy source reports
  | remove source => exact remove_eq tidy source
  | clear => rfl

theorem run_eq (tidy : graph.edges.Tidy graph.settings.prune) (changes : List Change) :
    run graph changes = graph.run changes := by
  induction changes generalizing graph with
  | nil => rfl
  | cons made rest ih =>
      have kept : (graph.change made).graph.edges.Tidy
          (graph.change made).graph.settings.prune :=
        tidy_invariant.run_always tidy [made]
      rw [run_cons, ← ih kept, ← change_eq tidy]
      rfl

end InPlace

/-! ## Histories -/

/-- After every history, under any settings, no last report is stored empty and no row of
last reports is; if the graph is pruned, neither an entry nor a row of edges is, and a row
is stored for an object exactly if it has an edge.  So it is when the changes are made in
place, which gives the same graph. -/
theorem nothing_empty_stored (settings : Settings) (changes : List Change) :
    let graph := (fresh settings).run changes
    InPlace.run (fresh settings) changes = graph ∧
      (graph.reports.NoEmptyEntry ∧ graph.reports.NoEmptyRow) ∧
      (settings.prune = true →
        (graph.edges.NoEmptyEntry ∧ graph.edges.NoEmptyRow) ∧
          ∀ id, id ∈ graph.edges.rows ↔ ∃ label x, x ∈ graph.neighbours id label) := by
  intro graph
  have reports : graph.TidyReports := tidyReports_run settings changes
  have edges : graph.edges.Tidy settings.prune := tidy_run settings changes
  constructor
  · exact InPlace.run_eq .empty changes
  constructor
  · exact ⟨reports.entries, reports.rows⟩
  · intro pruned
    have entries := edges.entries pruned
    exact ⟨⟨entries, edges.rows⟩, fun _ => Adjacency.mem_rows_iff edges.rows entries⟩

open Example in
/-- The deployment has an edge and so a row, and the volume has no row and so no edge. -/
theorem web_stored_and_disk_not :
    web ∈ ((fresh {}).run bystanders).edges.rows ∧
      ¬∃ label x, x ∈ ((fresh {}).run bystanders).neighbours disk label := by
  obtain ⟨-, -, pruned⟩ := nothing_empty_stored {} bystanders
  obtain ⟨-, stored⟩ := pruned rfl
  constructor
  · exact (stored web).mpr ⟨.offshoot, pod, by decide +kernel⟩
  · rw [← stored disk]
    decide +kernel

/-- Where entries are not pruned, the one of a volume that has been removed stays. -/
example :
    ((fresh { prune := false }).run Example.bystanders).edges.find? Example.disk .offshoot =
      some ∅ := by
  decide +kernel

end Graph

end InventoryGraph
