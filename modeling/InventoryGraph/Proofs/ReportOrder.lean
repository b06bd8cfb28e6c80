import InventoryGraph.Adjacency.OneLabel
import InventoryGraph.Proofs.Change
import Mathlib.Data.List.Nodup

/-!
# The order of reports in an update

The reports of an update share the rows of the graph, of its source and of the objects
they list, and one report can drop a row that another makes anew.  Yet reports under
different labels neither see nor undo what the others do (`receive_comm`), so an update
with one report for each label leaves the same graph whatever their order, and the same
outcomes (`update_of_perm`).

A map from labels to objects has its entries in some order that nobody knows, each label
once (`Enumerates`).  Reports of such entries are a matter of the map alone.
-/

namespace InventoryGraph

/-- The order of outcomes does not show in their sum. -/
theorem Tally.ofOutcomes_eq_of_perm {first second : List Outcome} (perm : first.Perm second) :
    ofOutcomes first = ofOutcomes second := by
  apply perm.foldl_eq'
  intro left _ right _ tally
  rw [count_eq_add, count_eq_add tally, count_eq_add, count_eq_add tally]
  ext <;> simp [Nat.add_right_comm]

/-! ## The reports of a map -/

/-- The map from labels to objects that some reports have the entries of. -/
def connections (reports : List Report) (label : Label) : Option IdSet :=
  (reports.find? fun report => report.label = label).map Report.targets

/-- Reports have the entries of a map, each once. -/
structure Enumerates (map : Label → Option IdSet) (reports : List Report) : Prop where
  distinct : (reports.map Report.label).Nodup
  mem_iff : ∀ report, report ∈ reports ↔ map report.label = some report.targets

theorem Enumerates.perm {map : Label → Option IdSet} {reports others : List Report}
    (one : Enumerates map reports) (other : Enumerates map others) : reports.Perm others := by
  rw [List.perm_ext_iff_of_nodup one.distinct.of_map other.distinct.of_map]
  intro report
  rw [one.mem_iff, other.mem_iff]

theorem Enumerates.of_perm {map : Label → Option IdSet} {reports others : List Report}
    (one : Enumerates map reports) (perm : reports.Perm others) : Enumerates map others where
  distinct := (perm.map Report.label).nodup one.distinct
  mem_iff report := perm.mem_iff.symm.trans (one.mem_iff report)

theorem connections_cons (first : Report) (rest : List Report) (label : Label) :
    connections (first :: rest) label =
      if first.label = label then some first.targets else connections rest label := by
  by_cases same : first.label = label <;> simp [connections, same]

/-- Reports under different labels have the entries of a map. -/
theorem enumerates_connections {reports : List Report}
    (distinct : (reports.map Report.label).Nodup) :
    Enumerates (connections reports) reports := by
  refine ⟨distinct, fun report => ?_⟩
  induction reports with
  | nil => simp [connections]
  | cons first rest ih =>
      rw [List.map_cons, List.nodup_cons] at distinct
      rw [List.mem_cons, connections_cons, ih distinct.2]
      by_cases same : first.label = report.label
      · have absent : report ∉ rest := by
          intro later
          exact distinct.1 (same ▸ List.mem_map_of_mem later)
        rw [ih distinct.2] at absent
        obtain ⟨label, targets⟩ := report
        obtain ⟨firstLabel, firstTargets⟩ := first
        simp only at same absent
        subst same
        simp [absent, eq_comm]
      · have different : report ≠ first := by
          rintro rfl
          exact same rfl
        simp [same, different]

namespace Graph

variable {graph : Graph} {source : ObjectId} {first second : Report}

/-! ## Two reports -/

/-- What a report under one label leaves of the last reports under another. -/
theorem find?_reports_receive_of_ne {report : Report} {label : Label}
    (different : report.label ≠ label) (id : ObjectId) :
    (graph.receive source report).1.reports.find? id label = graph.reports.find? id label := by
  unfold receive
  split
  · rfl
  · exact (Adjacency.Under.assign report.label source report.targets).find?_eq different
      graph.reports id

/-- Reports under different labels can be applied in either order. -/
theorem apply_comm (graph : Graph) (source : ObjectId)
    (different : first.label ≠ second.label) :
    ((graph.apply source first).1.apply source second).1 =
      ((graph.apply source second).1.apply source first).1 := by
  have exchange : ∀ (report : Report) (withdrawn : IdSet),
      Adjacency.Under report.label fun edges =>
        (edges.unlinkAll graph.settings.prune source report.label withdrawn).linkAll source
          report.label report.targets :=
    fun report withdrawn => (Adjacency.Under.linkAll _ _ _).comp (.unlinkAll _ _ _ _)
  have assign : ∀ report : Report,
      Adjacency.Under report.label fun reports =>
        reports.assign source report.label report.targets :=
    fun report => .assign _ _ _
  -- What either report withdraws is the same before and after the other.
  have firstLast := (assign second).neighbours_eq different.symm graph.reports source
  have secondLast := (assign first).neighbours_eq different graph.reports source
  have edges_eq := ((exchange second
      (graph.reports.neighbours source second.label \ second.targets)).commute (exchange first
      (graph.reports.neighbours source first.label \ first.targets)) different.symm) graph.edges
  have reports_eq := (assign second).commute (assign first) different.symm graph.reports
  simp only [apply, firstLast, secondLast, edges_eq, reports_eq]

/-- Whether a report is skipped does not depend on reports under other labels. -/
theorem receive_receive_of_ne (graph : Graph) (source : ObjectId)
    (different : first.label ≠ second.label) :
    (graph.receive source first).1.receive source second =
      if graph.settings.skip.skips (graph.reports.find? source second.label) second.targets then
        ((graph.receive source first).1, .skipped)
      else
        (graph.receive source first).1.apply source second := by
  rw [← settings_receive graph source first, ← find?_reports_receive_of_ne different source]
  rfl

/-- Reports under different labels can be received in either order. -/
theorem receive_comm (graph : Graph) (source : ObjectId)
    (different : first.label ≠ second.label) :
    ((graph.receive source first).1.receive source second).1 =
      ((graph.receive source second).1.receive source first).1 := by
  rw [receive_receive_of_ne graph source different,
    receive_receive_of_ne graph source different.symm]
  unfold receive
  by_cases firstSkipped : graph.settings.skip.skips
      (graph.reports.find? source first.label) first.targets = true
  · simp only [if_pos firstSkipped]
  · simp only [if_neg firstSkipped]
    by_cases secondSkipped : graph.settings.skip.skips
        (graph.reports.find? source second.label) second.targets = true
    · simp only [if_pos secondSkipped]
    · simp only [if_neg secondSkipped]
      exact apply_comm graph source different

/-- The outcome of a report does not depend on reports under other labels. -/
theorem outcome_receive_of_ne (graph : Graph) (source : ObjectId)
    (different : first.label ≠ second.label) :
    ((graph.receive source first).1.receive source second).2 =
      (graph.receive source second).2 := by
  have last : (graph.receive source first).1.reports.neighbours source second.label =
      graph.reports.neighbours source second.label := by
    rw [Adjacency.neighbours, find?_reports_receive_of_ne different, ← Adjacency.neighbours]
  have before : (graph.receive source first).1.edges.neighbours source second.label =
      graph.edges.neighbours source second.label :=
    neighbours_receive_of_ne graph source different source
  have alone : graph.receive source second =
      if graph.settings.skip.skips (graph.reports.find? source second.label) second.targets then
        (graph, .skipped)
      else
        graph.apply source second :=
    rfl
  rw [receive_receive_of_ne graph source different, alone]
  split
  · rfl
  · simp only [apply, last, before]

/-! ## Many reports -/

/-- With one report for each label, an update leaves the same graph whatever the order of
its reports, and each report has the same outcome. -/
theorem update_of_perm {reports others : List Report} (perm : reports.Perm others)
    (distinct : (reports.map Report.label).Nodup) (graph : Graph) (source : ObjectId) :
    (graph.update source reports).graph = (graph.update source others).graph ∧
      (graph.update source reports).outcomes.Perm (graph.update source others).outcomes := by
  induction perm generalizing graph with
  | nil => exact ⟨rfl, .nil⟩
  | cons report _ ih =>
      rw [List.map_cons, List.nodup_cons] at distinct
      rcases ih distinct.2 (graph.receive source report).1 with ⟨same, outcomes⟩
      exact ⟨same, outcomes.cons _⟩
  | swap second first rest =>
      have different : first.label ≠ second.label := by
        rintro same
        simp [same] at distinct
      simp only [update_cons, receive_comm graph source different,
        outcome_receive_of_ne graph source different,
        outcome_receive_of_ne graph source different.symm]
      exact ⟨trivial, .swap _ _ _⟩
  | trans perm _ first second =>
      have others := first distinct graph
      have rest := second ((perm.map Report.label).nodup distinct) graph
      exact ⟨others.1.trans rest.1, others.2.trans rest.2⟩

theorem tally_update_of_perm {reports others : List Report} (perm : reports.Perm others)
    (distinct : (reports.map Report.label).Nodup) (graph : Graph) (source : ObjectId) :
    (graph.update source reports).tally = (graph.update source others).tally :=
  Tally.ofOutcomes_eq_of_perm ((update_of_perm perm distinct graph source).2.map Prod.snd)

/-- In every graph, reports under different labels leave the same edges and last reports, as
they are stored, and have the same tally in any order.  So an update with the entries of a
map has one result, in whatever order the map lists them. -/
theorem update_order_irrelevant (graph : Graph) (source : ObjectId) :
    (∀ reports others : List Report, (reports.map Report.label).Nodup → reports.Perm others →
      (graph.update source reports).graph = (graph.update source others).graph ∧
        (graph.update source reports).tally = (graph.update source others).tally) ∧
    (∀ (connections : Label → Option IdSet) (reports others : List Report),
      Enumerates connections reports → Enumerates connections others →
        (graph.update source reports).graph = (graph.update source others).graph ∧
          (graph.update source reports).tally = (graph.update source others).tally) := by
  have anyOrder : ∀ reports others : List Report, (reports.map Report.label).Nodup →
      reports.Perm others →
        (graph.update source reports).graph = (graph.update source others).graph ∧
          (graph.update source reports).tally = (graph.update source others).tally :=
    fun _ _ distinct perm => ⟨(update_of_perm perm distinct graph source).1,
      tally_update_of_perm perm distinct graph source⟩
  exact ⟨anyOrder, fun _ _ _ one other => anyOrder _ _ one.distinct (one.perm other)⟩

/-- A deployment with edges under two labels reports from the first label to the last, and
from the last to the first. -/
theorem web_reports_in_reverse :
    (Example.secondThoughts.map Report.label).Nodup ∧
    Example.secondThoughts.Perm Example.secondThoughts.reverse ∧
    Enumerates (connections Example.secondThoughts) Example.secondThoughts ∧
    Enumerates (connections Example.secondThoughts) Example.secondThoughts.reverse ∧
    (((fresh {}).run Example.twoLabels).update Example.web Example.secondThoughts).graph =
      (((fresh {}).run Example.twoLabels).update Example.web
        Example.secondThoughts.reverse).graph ∧
    (((fresh {}).run Example.twoLabels).update Example.web Example.secondThoughts).tally =
      (((fresh {}).run Example.twoLabels).update Example.web
        Example.secondThoughts.reverse).tally := by
  have distinct : (Example.secondThoughts.map Report.label).Nodup := by decide
  have perm : Example.secondThoughts.Perm Example.secondThoughts.reverse :=
    (List.reverse_perm _).symm
  have forth := enumerates_connections distinct
  have back := forth.of_perm perm
  obtain ⟨reordered, mapped⟩ :=
    update_order_irrelevant ((fresh {}).run Example.twoLabels) Example.web
  exact ⟨distinct, perm, forth, back, (reordered _ _ distinct perm).1,
    (mapped _ _ _ forth back).2⟩

end Graph

end InventoryGraph
