import InventoryGraph.Adjacency.Listing
import InventoryGraph.Proofs.Change
import InventoryGraph.Proofs.Reach
import InventoryGraph.Session

/-!
# Pruning does not show

Two graphs whose settings differ in pruning only come to hold different entries,
since empty ones stay in one of them and are used again later.  They are alike
all the same: they have the same last reports and the same snapshot (`Alike`).

Every call keeps graphs alike, as it changes neighbours in the same way, and no
question tells alike graphs apart, as none looks at anything but snapshots, last
reports and the other settings.  So a session gives the same answers and leaves the
same events whether or not the graph is pruned (`session_prune_irrelevant`).
-/

namespace InventoryGraph

namespace Adjacency

/-! ## Reach in a snapshot -/

theorem step_snapshot (edges : Adjacency) (label : Label) :
    edges.snapshot.Step label = edges.Step label := by
  funext source target
  simp only [Step, neighbours_snapshot]

@[simp]
theorem reach_snapshot (edges : Adjacency) (seeds : List ObjectId) (label : Label) :
    edges.snapshot.reach seeds label = edges.reach seeds label := by
  apply Std.ExtTreeSet.ext_mem
  intro x
  rw [mem_reach_iff, mem_reach_iff, Connected, Connected, step_snapshot]

end Adjacency

namespace Graph

/-- Graphs that may differ in pruning, and in the empty entries that it drops. -/
structure Alike (one other : Graph) : Prop where
  expansion : one.settings.expansion = other.settings.expansion
  skip : one.settings.skip = other.settings.skip
  reports : one.reports = other.reports
  snapshot : one.snapshot = other.snapshot

namespace Alike

variable {one other : Graph}

theorem neighbours_eq (alike : Alike one other) (id : ObjectId) (label : Label) :
    one.neighbours id label = other.neighbours id label :=
  Adjacency.snapshot_eq_iff.mp alike.snapshot id label

theorem snapshot_eq_of_mem_neighbours_iff
    (same : ∀ id label x, x ∈ one.neighbours id label ↔ x ∈ other.neighbours id label) :
    one.snapshot = other.snapshot :=
  Adjacency.snapshot_eq_iff.mpr fun id label => Std.ExtTreeSet.ext_mem (same id label)

/-! ## Changes keep graphs alike -/

theorem apply (alike : Alike one other) (source : ObjectId) (report : Report) :
    Alike (one.apply source report).1 (other.apply source report).1 ∧
      (one.apply source report).2 = (other.apply source report).2 := by
  have neighbours_eq := alike.neighbours_eq
  constructor
  · refine ⟨alike.expansion, alike.skip, ?_, snapshot_eq_of_mem_neighbours_iff ?_⟩
    · simp only [Graph.apply, alike.reports]
    · intro id label x
      rw [mem_neighbours_apply, mem_neighbours_apply, lastReport, lastReport, alike.reports,
        neighbours_eq]
  · simp only [neighbours] at neighbours_eq
    simp only [Graph.apply, alike.reports, neighbours_eq]

theorem receive (alike : Alike one other) (source : ObjectId) (report : Report) :
    Alike (one.receive source report).1 (other.receive source report).1 ∧
      (one.receive source report).2 = (other.receive source report).2 := by
  unfold Graph.receive
  rw [alike.skip, alike.reports]
  split
  · exact ⟨alike, rfl⟩
  · exact alike.apply source report

theorem update (alike : Alike one other) (source : ObjectId) (reports : List Report) :
    Alike (one.update source reports).graph (other.update source reports).graph ∧
      (one.update source reports).outcomes = (other.update source reports).outcomes := by
  induction reports generalizing one other with
  | nil => exact ⟨alike, rfl⟩
  | cons report rest ih =>
      obtain ⟨middle, outcome⟩ := alike.receive source report
      obtain ⟨after, outcomes⟩ := ih middle
      refine ⟨after, ?_⟩
      rw [update_cons, update_cons, outcome, outcomes]

theorem remove (alike : Alike one other) (source : ObjectId) :
    Alike (one.remove source).graph (other.remove source).graph ∧
      (one.remove source).outcomes = (other.remove source).outcomes := by
  have neighbours_eq := alike.neighbours_eq
  constructor
  · refine ⟨alike.expansion, alike.skip, ?_, snapshot_eq_of_mem_neighbours_iff ?_⟩
    · simp only [Graph.remove, alike.reports]
    · intro id label x
      rw [mem_neighbours_remove, mem_neighbours_remove, lastReport, lastReport, alike.reports,
        neighbours_eq]
  · simp only [neighbours] at neighbours_eq
    simp only [Graph.remove, alike.reports, neighbours_eq]

theorem change (alike : Alike one other) (change : Change) :
    Alike (one.change change).graph (other.change change).graph ∧
      (one.change change).outcomes = (other.change change).outcomes := by
  cases change with
  | update source reports => exact alike.update source reports
  | remove source => exact alike.remove source
  | clear => exact ⟨⟨alike.expansion, alike.skip, rfl, rfl⟩, rfl⟩

/-! ## Questions do not tell alike graphs apart -/

/-- What does not tell an adjacency from its snapshot does not tell alike graphs
apart. -/
theorem reading_eq (alike : Alike one other) {α : Type} (read : Adjacency → α)
    (read_snapshot : ∀ edges : Adjacency, read edges.snapshot = read edges) :
    read one.edges = read other.edges := by
  rw [← read_snapshot one.edges, ← read_snapshot other.edges]
  exact congrArg read alike.snapshot

theorem reach_eq (alike : Alike one other) (seeds : List ObjectId) (label : Label) :
    one.reach seeds label = other.reach seeds label :=
  alike.reading_eq (·.reach seeds label) fun _ => Adjacency.reach_snapshot _ _ _

theorem links_eq (alike : Alike one other) (id : ObjectId) (label : Label) :
    one.links id label = other.links id label := by
  simp only [links, linked, unit, alike.reach_eq, alike.expansion]

theorem grouped_eq (alike : Alike one other) (id : ObjectId) (query : Query) :
    query.grouped one id = query.grouped other id := by
  simp only [Query.grouped, alike.links_eq]

theorem answer_eq (alike : Alike one other) (request : Request) :
    one.answer request = other.answer request := by
  cases request with
  | reach seeds label => simp only [answer, alike.reach_eq]
  | links id label => simp only [answer, alike.links_eq]
  | linksOfText text label => simp only [answer, linksOfText, alike.links_eq]
  | query id parts goal =>
      cases goal <;>
        simp only [answer, answerQuery, Query.listed, Query.count, Query.holds,
          alike.grouped_eq]
  | neighbours id label => simp only [answer, alike.neighbours_eq]
  | lastReport source label => simp only [answer, lastReport, alike.reports]
  | labels id =>
      exact congrArg Answer.labels <|
        alike.reading_eq (·.labels id) fun _ => Adjacency.labels_snapshot _ _
  | contains id =>
      exact congrArg Answer.truth <|
        alike.reading_eq (·.contains id) fun _ => Adjacency.contains_snapshot _ _
  | nodeCount =>
      exact congrArg Answer.number <| alike.reading_eq _ Adjacency.nodeCount_snapshot
  | edgeCount =>
      exact congrArg Answer.number <| alike.reading_eq _ Adjacency.edgeCount_snapshot
  | snapshot => simp only [answer, alike.snapshot]
  | document => simp only [answer, document, alike.snapshot]
  | draw style => simp only [answer, draw, alike.snapshot]

theorem events_eq (alike : Alike one other) (request : Request) :
    Event.ofRequest one request = Event.ofRequest other request := by
  cases request <;> simp only [Event.ofRequest, Event.ofQuery, alike.links_eq]

/-! ## Sessions -/

theorem call (alike : Alike one other) (call : Call) :
    Alike (one.call call).graph (other.call call).graph ∧
      (one.call call).answer = (other.call call).answer ∧
      (one.call call).events = (other.call call).events := by
  cases call with
  | change change =>
      obtain ⟨after, outcomes⟩ := alike.change change
      refine ⟨after, ?_, ?_⟩
      · simp only [Graph.call, Applied.tally, outcomes]
      · cases change <;>
          simp only [Graph.call, Event.ofChange, Event.ofUpdate, Event.ofRemove, Applied.tally,
            outcomes]
  | request request => exact ⟨alike, alike.answer_eq request, alike.events_eq request⟩

/-- A session shows the same in alike graphs. -/
theorem session (alike : Alike one other) (calls : List Call) :
    (one.session calls).map (fun turn => (turn.answer, turn.events)) =
      (other.session calls).map fun turn => (turn.answer, turn.events) := by
  induction calls generalizing one other with
  | nil => rfl
  | cons call rest ih =>
      obtain ⟨after, answer, events⟩ := alike.call call
      simp only [Graph.session, List.map_cons, answer, events, ih after]

end Alike

theorem alike_fresh (settings : Settings) (one other : Bool) :
    Alike (fresh { settings with prune := one }) (fresh { settings with prune := other }) :=
  ⟨rfl, rfl, rfl, rfl⟩

/-- Whatever is called and in whatever order, a graph that is pruned gives the same
answers and leaves the same events as one that is not: settings that differ in
pruning only do not differ for any caller. -/
theorem session_prune_irrelevant (settings : Settings) (one other : Bool)
    (calls : List Call) :
    ((fresh { settings with prune := one }).session calls).map
        (fun turn => (turn.answer, turn.events)) =
      ((fresh { settings with prune := other }).session calls).map
        fun turn => (turn.answer, turn.events) :=
  (alike_fresh settings one other).session calls

-- The entries that are left differ all the same: an edge that has come and gone leaves
-- empty entries behind where nothing is pruned.
example :
    let calls := [Change.update Example.web [⟨.offshoot, {Example.pod}⟩], .remove Example.web]
    ((fresh { prune := true }).run calls).edges.find? Example.pod .offshoot = none ∧
      ((fresh { prune := false }).run calls).edges.find? Example.pod .offshoot = some ∅ := by
  decide +kernel

end Graph

end InventoryGraph
