import InventoryGraph.Adjacency.Extensional
import InventoryGraph.Proofs.Change

/-!
# What one change touches

A report that is skipped leaves the graph as it is.  One that is applied joins its
source with the objects that it lists and parts it from those that it withdraws,
and touches no other pair, under no other label, and no other last report
(`Replaces`).  A removal parts its source from the objects of its last reports and
touches nothing else but these reports (`Withdraws`).

Pairs have no direction here: what is said of the source as one end holds of it as
the other.  A pair is never both listed and withdrawn
(`Between.not_between_diff`), so the two halves of a report do not interfere.

Nor do edges say who has reported them.  A removal spares an edge that another object
has reported unless the source has reported it too; then the edge goes, and the last
report of the other object, which still lists the source, outlives it (`Outlives`).
-/

namespace InventoryGraph

/-- A pair with a listed object is not a pair with one that is left out. -/
theorem Between.not_between_diff {source : ObjectId} {last targets : IdSet}
    {left right : ObjectId} (listed : Between source targets left right) :
    ¬Between source (last \ targets) left right := by
  simp only [Between, Std.ExtTreeSet.mem_diff_iff]
  rintro (⟨rfl, _, unlisted⟩ | ⟨⟨_, unlisted⟩, rfl⟩)
  · rcases listed with ⟨_, target⟩ | ⟨target, rfl⟩
    · exact unlisted target
    · exact unlisted target
  · rcases listed with ⟨rfl, target⟩ | ⟨target, _⟩
    · exact unlisted target
    · exact unlisted target

namespace Graph

/-! ## One report -/

/-- A report of a source, put in the place of the last one, makes a graph out of
another. -/
structure Replaces (before : Graph) (source : ObjectId) (report : Report) (after : Graph) :
    Prop where
  /-- The source and what it lists are joined. -/
  listed : ∀ left right, Between source report.targets left right →
    right ∈ after.neighbours left report.label
  /-- The source and what it no longer lists are parted. -/
  withdrawn : ∀ left right,
    Between source (before.lastReport source report.label \ report.targets) left right →
      right ∉ after.neighbours left report.label
  /-- Any other pair is joined or not as before. -/
  kept : ∀ left right label,
    ¬(label = report.label ∧ Between source report.targets left right) →
    ¬(label = report.label ∧
      Between source (before.lastReport source report.label \ report.targets) left right) →
        (right ∈ after.neighbours left label ↔ right ∈ before.neighbours left label)
  /-- The report is the last one now. -/
  last : after.lastReport source report.label = report.targets
  /-- Any other last report is stored as before. -/
  others : ∀ id label, ¬(id = source ∧ label = report.label) →
    after.reports.find? id label = before.reports.find? id label

theorem replaces_apply (graph : Graph) (source : ObjectId) (report : Report) :
    Replaces graph source report (graph.apply source report).1 where
  listed left right listed := by
    rw [mem_neighbours_apply]
    exact Or.inl ⟨rfl, listed⟩
  withdrawn left right withdrawn := by
    rw [mem_neighbours_apply]
    rintro (⟨_, listed⟩ | ⟨kept, _⟩)
    · exact listed.not_between_diff withdrawn
    · exact kept ⟨rfl, withdrawn⟩
  kept left right label unlisted unwithdrawn := by
    rw [mem_neighbours_apply]
    constructor
    · rintro (listed | ⟨_, member⟩)
      · exact absurd listed unlisted
      · exact member
    · exact fun member => Or.inr ⟨unwithdrawn, member⟩
  last := by rw [lastReport_apply, if_pos ⟨rfl, rfl⟩]
  others id label other := by
    have different : ¬(source = id ∧ report.label = label) :=
      fun same => other ⟨same.1.symm, same.2.symm⟩
    exact (Adjacency.find?_assign _ _ _ _ _ _).trans (if_neg different)

/-- A report is skipped when the rule of the settings says so. -/
theorem outcome_receive_eq_skipped_iff {graph : Graph} {source : ObjectId} {report : Report} :
    (graph.receive source report).2 = .skipped ↔
      graph.settings.skip.skips (graph.reports.find? source report.label) report.targets =
        true := by
  unfold receive
  split
  · rename_i skipped
    simp [skipped]
  · rename_i told
    simp [told, apply]

/-! ## One removal -/

/-- A source taken out, with all its last reports, makes a graph out of another. -/
structure Withdraws (before : Graph) (source : ObjectId) (after : Graph) : Prop where
  /-- The source and what it last listed are parted. -/
  withdrawn : ∀ left right label, Between source (before.lastReport source label) left right →
    right ∉ after.neighbours left label
  /-- Any other pair is joined or not as before. -/
  kept : ∀ left right label, ¬Between source (before.lastReport source label) left right →
    (right ∈ after.neighbours left label ↔ right ∈ before.neighbours left label)
  /-- The source has no last report. -/
  gone : ∀ label, after.reports.find? source label = none
  /-- The last reports of others are stored as before. -/
  others : ∀ id label, id ≠ source →
    after.reports.find? id label = before.reports.find? id label

theorem withdraws_remove (graph : Graph) (source : ObjectId) :
    Withdraws graph source (graph.remove source).graph where
  withdrawn left right label reported := by
    rw [mem_neighbours_remove]
    exact fun kept => kept.1 reported
  kept left right label unreported := by
    rw [mem_neighbours_remove]
    exact and_iff_right unreported
  gone label := (Adjacency.find?_eraseRow _ _ _ _).trans (if_pos rfl)
  others id label other := (Adjacency.find?_eraseRow _ _ _ _).trans (if_neg other.symm)

/-- A report that is skipped changes nothing at all; one that is not skipped is put in
the place of the last one, and a removal takes all last reports of its source out,
each without any further effect. -/
theorem receive_replaces_and_remove_withdraws (graph : Graph) (source : ObjectId)
    (report : Report) :
    ((graph.receive source report).2 = .skipped → (graph.receive source report).1 = graph) ∧
    ((graph.receive source report).2 ≠ .skipped →
      Replaces graph source report (graph.receive source report).1) ∧
    Withdraws graph source (graph.remove source).graph := by
  refine ⟨?skipped, ?applied, withdraws_remove graph source⟩
  case skipped =>
    intro skipped
    rw [outcome_receive_eq_skipped_iff] at skipped
    rw [receive, if_pos skipped]
  case applied =>
    intro applied
    rw [Ne, outcome_receive_eq_skipped_iff] at applied
    rw [receive, if_neg applied]
    exact replaces_apply graph source report

/-- A pod repeats what it reported last, and then reports a volume instead. -/
theorem pod_repeats_and_replaces :
    (((fresh {}).run Example.anew).receive Example.pod
      ⟨.offshoot, {Example.web}⟩).2 = .skipped ∧
    (((fresh {}).run Example.anew).receive Example.pod
      ⟨.offshoot, {Example.web}⟩).1 = (fresh {}).run Example.anew ∧
    (((fresh {}).run Example.anew).receive Example.pod
      ⟨.offshoot, {Example.disk}⟩).2 ≠ .skipped ∧
    Replaces ((fresh {}).run Example.anew) Example.pod ⟨.offshoot, {Example.disk}⟩
      (((fresh {}).run Example.anew).receive Example.pod ⟨.offshoot, {Example.disk}⟩).1 ∧
    Withdraws ((fresh {}).run Example.anew) Example.pod
      (((fresh {}).run Example.anew).remove Example.pod).graph := by
  have repeated : (((fresh {}).run Example.anew).receive Example.pod
      ⟨.offshoot, {Example.web}⟩).2 = .skipped := by
    decide +kernel
  have replaced : (((fresh {}).run Example.anew).receive Example.pod
      ⟨.offshoot, {Example.disk}⟩).2 ≠ .skipped := by
    decide +kernel
  have same := receive_replaces_and_remove_withdraws ((fresh {}).run Example.anew)
    Example.pod ⟨.offshoot, {Example.web}⟩
  have new := receive_replaces_and_remove_withdraws ((fresh {}).run Example.anew)
    Example.pod ⟨.offshoot, {Example.disk}⟩
  exact ⟨repeated, same.1 repeated, replaced, new.2.1 replaced, new.2.2⟩

/-! ## Edges that others have reported -/

/-- A report that repeats the last one tells nothing new. -/
theorem skips_self (rule : SkipRule) (targets : IdSet) :
    rule.skips (some targets) targets = true := by
  cases rule with
  | equality => simp [SkipRule.skips]
  | subset => simp [SkipRule.skips, List.all_eq_true]

/-- Where a source has a last report, its repetition is skipped. -/
theorem receive_lastReport {graph : Graph} {source x : ObjectId} {label : Label}
    (listed : x ∈ graph.lastReport source label) :
    graph.receive source ⟨label, graph.lastReport source label⟩ = (graph, .skipped) := by
  have stored : graph.reports.find? source label = some (graph.lastReport source label) := by
    unfold lastReport Adjacency.neighbours at listed ⊢
    cases last : graph.reports.find? source label with
    | none => simp [last] at listed
    | some targets => rfl
  simp only [receive, stored, skips_self, if_true]

/-- The last report of a source outlives the edge with an object that it lists: the two
are parted, and repeating the report does not join them. -/
structure Outlives (graph : Graph) (source : ObjectId) (label : Label) (target : ObjectId) :
    Prop where
  listed : target ∈ graph.lastReport source label
  parted : target ∉ graph.neighbours source label
  repeated : graph.receive source ⟨label, graph.lastReport source label⟩ = (graph, .skipped)

/-- The removal of a source spares an edge that another object has reported exactly if
the source has not reported it too.  Otherwise the report of the other object outlives
the edge. -/
theorem remove_spares_iff (graph : Graph) {source other : ObjectId} (different : source ≠ other)
    {label : Label} (reported : source ∈ graph.lastReport other label)
    (joined : source ∈ graph.neighbours other label) :
    (source ∈ (graph.remove source).graph.neighbours other label ↔
      other ∉ graph.lastReport source label) ∧
    (other ∈ graph.lastReport source label →
      Outlives (graph.remove source).graph other label source) := by
  have spared : source ∈ (graph.remove source).graph.neighbours other label ↔
      other ∉ graph.lastReport source label := by
    rw [mem_neighbours_remove, and_iff_left joined]
    apply not_congr
    constructor
    · rintro (⟨same, _⟩ | ⟨listed, _⟩)
      · exact absurd same.symm different
      · exact listed
    · exact fun listed => Or.inr ⟨listed, rfl⟩
  refine ⟨spared, fun listed => ?_⟩
  have still : source ∈ (graph.remove source).graph.lastReport other label := by
    rwa [lastReport_remove, if_neg different]
  exact ⟨still, fun member => spared.mp member listed, receive_lastReport still⟩

/-- The deployment and its pod have reported each other.  The removal of the deployment
takes their edge along, and the report of the pod outlives it. -/
theorem pod_outlives_edge :
    Example.web ≠ Example.pod ∧
    Example.web ∈ ((fresh {}).run Example.eachOther).lastReport Example.pod .offshoot ∧
    Example.web ∈ ((fresh {}).run Example.eachOther).neighbours Example.pod .offshoot ∧
    Outlives (((fresh {}).run Example.eachOther).remove Example.web).graph
      Example.pod .offshoot Example.web := by
  have different : Example.web ≠ Example.pod := by decide
  have reported : Example.web ∈
      ((fresh {}).run Example.eachOther).lastReport Example.pod .offshoot := by
    decide +kernel
  have joined : Example.web ∈
      ((fresh {}).run Example.eachOther).neighbours Example.pod .offshoot := by
    decide +kernel
  have listed : Example.pod ∈
      ((fresh {}).run Example.eachOther).lastReport Example.web .offshoot := by
    decide +kernel
  exact ⟨different, reported, joined,
    (remove_spares_iff _ different reported joined).2 listed⟩

/-- So a removal does not spare every edge that another object has reported. -/
theorem not_always_spared :
    ¬∀ (settings : Settings) (changes : List Change) (source other : ObjectId) (label : Label),
      other ≠ source →
      source ∈ ((fresh settings).run changes).lastReport other label →
      source ∈ ((fresh settings).run changes).neighbours other label →
        source ∈ (((fresh settings).run changes).remove source).graph.neighbours other label := by
  intro spared
  rcases pod_outlives_edge with ⟨different, reported, joined, outlives⟩
  exact outlives.parted
    (spared {} Example.eachOther _ _ _ different.symm reported joined)

end Graph

end InventoryGraph
