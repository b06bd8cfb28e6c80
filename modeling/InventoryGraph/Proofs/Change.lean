import InventoryGraph.Adjacency.Entry
import InventoryGraph.History

/-!
# What changes do to a graph

Each kind of change has one statement about the neighbours it leaves and one
about the last reports it leaves.  A report and a removal touch edges between
the source and the objects it has reported or now reports, and no others
(`Between`).

A property that survives single reports, removals and clearings (`Invariant`)
survives every history (`Invariant.run`).
-/

namespace InventoryGraph

/-- Two objects are the source and one of its targets, in either order. -/
def Between (source : ObjectId) (targets : IdSet) (left right : ObjectId) : Prop :=
  (left = source ∧ right ∈ targets) ∨ (left ∈ targets ∧ right = source)

theorem Between.comm {source : ObjectId} {targets : IdSet} {left right : ObjectId} :
    Between source targets left right ↔ Between source targets right left := by
  unfold Between
  grind

namespace Graph

/-! ## Settings stay -/

section Settings

variable (graph : Graph) (source : ObjectId)

@[simp]
theorem settings_apply (report : Report) :
    (graph.apply source report).1.settings = graph.settings :=
  rfl

@[simp]
theorem settings_receive (report : Report) :
    (graph.receive source report).1.settings = graph.settings := by
  unfold receive
  split <;> rfl

@[simp]
theorem settings_update (reports : List Report) :
    (graph.update source reports).graph.settings = graph.settings := by
  induction reports generalizing graph with
  | nil => rfl
  | cons report rest ih => exact (ih _).trans (settings_receive graph source report)

@[simp]
theorem settings_change (change : Change) :
    (graph.change change).graph.settings = graph.settings := by
  cases change with
  | update source reports => exact settings_update graph source reports
  | remove source => rfl
  | clear => rfl

@[simp]
theorem settings_run (changes : List Change) :
    (graph.run changes).settings = graph.settings := by
  induction changes generalizing graph with
  | nil => rfl
  | cons change rest ih => rw [run_cons, ih, settings_change]

end Settings

/-! ## Reports -/

@[simp]
theorem update_nil (graph : Graph) (source : ObjectId) : graph.update source [] = ⟨graph, []⟩ :=
  rfl

/-- The first report is dealt with before the others. -/
theorem update_cons (graph : Graph) (source : ObjectId) (report : Report)
    (rest : List Report) :
    graph.update source (report :: rest) =
      ⟨((graph.receive source report).1.update source rest).graph,
        (report.label, (graph.receive source report).2) ::
          ((graph.receive source report).1.update source rest).outcomes⟩ :=
  rfl

/-- A report leaves the edges to the objects that it lists, and all others but
those to the objects that it withdraws. -/
theorem mem_neighbours_apply (graph : Graph) (source : ObjectId) (report : Report)
    (id : ObjectId) (label : Label) (x : ObjectId) :
    x ∈ (graph.apply source report).1.neighbours id label ↔
      (label = report.label ∧ Between source report.targets id x) ∨
        ¬(label = report.label ∧
            Between source (graph.lastReport source report.label \ report.targets) id x) ∧
          x ∈ graph.neighbours id label := by
  simp only [neighbours, apply, Adjacency.mem_neighbours_linkAll,
    Adjacency.mem_neighbours_unlinkAll]
  rfl

/-- A report leaves the edges of other labels. -/
theorem neighbours_receive_of_ne (graph : Graph) (source : ObjectId) {report : Report}
    {label : Label} (different : report.label ≠ label) (id : ObjectId) :
    (graph.receive source report).1.neighbours id label = graph.neighbours id label := by
  unfold receive
  split
  · rfl
  · apply Std.ExtTreeSet.ext_mem
    intro x
    rw [mem_neighbours_apply]
    constructor
    · rintro (⟨same, _⟩ | ⟨_, member⟩)
      · exact absurd same.symm different
      · exact member
    · exact fun member => Or.inr ⟨fun withdrawn => different withdrawn.1.symm, member⟩

/-- An update leaves the edges of the labels that it does not mention. -/
theorem neighbours_update_of_not_mem (graph : Graph) (source : ObjectId)
    {reports : List Report} {label : Label} (absent : label ∉ reports.map Report.label)
    (id : ObjectId) :
    (graph.update source reports).graph.neighbours id label = graph.neighbours id label := by
  induction reports generalizing graph with
  | nil => rfl
  | cons report rest ih =>
      rw [List.map_cons, List.mem_cons, not_or] at absent
      rw [update_cons]
      exact (ih _ absent.2).trans
        (neighbours_receive_of_ne graph source (Ne.symm absent.1) id)

theorem lastReport_apply (graph : Graph) (source : ObjectId) (report : Report)
    (id : ObjectId) (label : Label) :
    (graph.apply source report).1.lastReport id label =
      if source = id ∧ report.label = label then report.targets
      else graph.lastReport id label :=
  Adjacency.neighbours_assign graph.reports source report.label report.targets id label

/-! ## Removals -/

private theorem mem_neighbours_foldl_unlinkAll (prune : Bool) (source : ObjectId)
    (entries : List (Label × IdSet)) (edges : Adjacency) (id : ObjectId) (label : Label)
    (x : ObjectId) :
    x ∈ (entries.foldl (fun edges entry => edges.unlinkAll prune source entry.1 entry.2)
        edges).neighbours id label ↔
      (∀ entry ∈ entries, ¬(label = entry.1 ∧ Between source entry.2 id x)) ∧
        x ∈ edges.neighbours id label := by
  induction entries generalizing edges with
  | nil => simp
  | cons entry rest ih =>
      simp only [List.foldl_cons, ih, Adjacency.mem_neighbours_unlinkAll,
        List.forall_mem_cons]
      unfold Between
      grind

/-- A removal leaves all edges but those to the objects of the last reports. -/
theorem mem_neighbours_remove (graph : Graph) (source id : ObjectId) (label : Label)
    (x : ObjectId) :
    x ∈ (graph.remove source).graph.neighbours id label ↔
      ¬Between source (graph.lastReport source label) id x ∧
        x ∈ graph.neighbours id label := by
  have untouched : (∀ entry ∈ (graph.reports.row source).toList,
      ¬(label = entry.1 ∧ Between source entry.2 id x)) ↔
        ¬Between source (graph.lastReport source label) id x := by
    simp only [Prod.forall, Std.ExtTreeMap.mem_toList_iff_getElem?_eq_some, not_and]
    constructor
    · intro untouched touched
      cases last : (graph.reports.row source)[label]? with
      | none =>
          simp [lastReport, Adjacency.neighbours, Adjacency.find?, last, Between] at touched
      | some targets =>
          apply untouched label targets last rfl
          simpa [lastReport, Adjacency.neighbours, Adjacency.find?, last] using touched
    · rintro untouched _ targets last rfl
      simpa [lastReport, Adjacency.neighbours, Adjacency.find?, last] using untouched
  simp only [neighbours, remove, Std.ExtTreeMap.foldl_eq_foldl_toList,
    mem_neighbours_foldl_unlinkAll, untouched]

theorem lastReport_remove (graph : Graph) (source id : ObjectId) (label : Label) :
    (graph.remove source).graph.lastReport id label =
      if source = id then ∅ else graph.lastReport id label :=
  Adjacency.neighbours_eraseRow graph.reports source id label

/-! ## Histories -/

/-- A property of graphs that single reports keep, as far as `allowed` lets
sources make them, and that removals and clearings keep. -/
structure Invariant (allowed : ObjectId → Report → Prop) (motive : Graph → Prop) : Prop where
  apply : ∀ graph source report, allowed source report → motive graph →
    motive (graph.apply source report).1
  remove : ∀ graph source, motive graph → motive (graph.remove source).graph
  clear : ∀ graph, motive graph → motive graph.clear

namespace Invariant

variable {allowed : ObjectId → Report → Prop} {motive : Graph → Prop} {graph : Graph}

/-- A skipped report changes nothing. -/
theorem receive (kept : Invariant allowed motive) (holds : motive graph)
    {source : ObjectId} {report : Report} (made : allowed source report) :
    motive (graph.receive source report).1 := by
  unfold Graph.receive
  split
  · exact holds
  · exact kept.apply graph source report made holds

theorem update (kept : Invariant allowed motive) (holds : motive graph)
    {source : ObjectId} {reports : List Report}
    (made : ∀ report ∈ reports, allowed source report) :
    motive (graph.update source reports).graph := by
  induction reports generalizing graph with
  | nil => exact holds
  | cons report rest ih =>
      rw [List.forall_mem_cons] at made
      exact ih (kept.receive holds made.1) made.2

theorem change (kept : Invariant allowed motive) (holds : motive graph) {change : Change}
    (made : change.Within allowed) : motive (graph.change change).graph := by
  cases change with
  | update source reports => exact kept.update holds made
  | remove source => exact kept.remove graph source holds
  | clear => exact kept.clear graph holds

theorem run (kept : Invariant allowed motive) (holds : motive graph) {changes : List Change}
    (made : ∀ change ∈ changes, change.Within allowed) : motive (graph.run changes) := by
  induction changes generalizing graph with
  | nil => exact holds
  | cons change rest ih =>
      rw [List.forall_mem_cons] at made
      exact ih (kept.change holds made.1) made.2

/-- What every report keeps, every history keeps. -/
theorem run_always (kept : Invariant (fun _ _ => True) motive) (holds : motive graph)
    (changes : List Change) : motive (graph.run changes) := by
  apply kept.run holds
  intro change _
  cases change <;> simp [Change.Within]

end Invariant

end Graph

end InventoryGraph
