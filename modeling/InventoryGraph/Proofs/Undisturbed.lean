import InventoryGraph.Proofs.Change
import InventoryGraph.Proofs.Reach

/-!
# Changes outside a reach

Every edge that a report or a removal joins or parts has the source at one end.  As long
as the source is not reached from some objects along a label, nothing reached is joined
with it, so nothing reached loses an edge of the label, whatever the last reports of the
source still list.  Nothing reached gains one if no report of the label lists it.  So all
that is reached keeps its neighbours, and the reach stays (`reach_eq_of_neighbours_eq`).

An update is followed report by report, as each finds the reach that the one before has
left (`reach_update_of_outside`).  Links are looked up by two reaches, the second one from
the unit, and stay if both do (`links_update_of_outside`).
-/

namespace InventoryGraph

namespace Adjacency

variable {edges after : Adjacency} {seeds : List ObjectId} {label : Label}

/-! ## Keeping a reach -/

theorem mem_reach_of_mem {seed : ObjectId} (member : seed ∈ seeds) :
    seed ∈ edges.reach seeds label :=
  (mem_reach_iff edges seeds label seed).mpr ⟨seed, member, .refl⟩

theorem mem_reach_of_step {id next : ObjectId} (reached : id ∈ edges.reach seeds label)
    (step : edges.Step label id next) : next ∈ edges.reach seeds label := by
  rw [mem_reach_iff] at reached ⊢
  obtain ⟨seed, member, path⟩ := reached
  exact ⟨seed, member, path.tail step⟩

/-- What holds of the seeds and goes over to neighbours holds of all that is reached. -/
theorem reach_induction {motive : ObjectId → Prop} (seed : ∀ id ∈ seeds, motive id)
    (step : ∀ id next, motive id → edges.Step label id next → motive next) {x : ObjectId}
    (reached : x ∈ edges.reach seeds label) : motive x := by
  obtain ⟨start, member, path⟩ := (mem_reach_iff edges seeds label x).mp reached
  clear reached
  induction path with
  | refl => exact seed start member
  | tail _ last ih => exact step _ _ ih last

/-- Nothing is reached outside a list that holds the seeds and all neighbours of what it
holds. -/
theorem mem_of_mem_reach {ids : List ObjectId} (start : ∀ seed ∈ seeds, seed ∈ ids)
    (closed : ∀ id ∈ ids, ∀ next ∈ (edges.neighbours id label).toList, next ∈ ids)
    {x : ObjectId} (reached : x ∈ edges.reach seeds label) : x ∈ ids := by
  apply reach_induction (motive := (· ∈ ids)) start _ reached
  intro id next inside step
  exact closed id inside next (Std.ExtTreeSet.mem_toList.mpr step)

/-- If all that is reached keeps its neighbours, the reach stays. -/
theorem reach_eq_of_neighbours_eq
    (same : ∀ id ∈ edges.reach seeds label,
      after.neighbours id label = edges.neighbours id label) :
    after.reach seeds label = edges.reach seeds label := by
  apply Std.ExtTreeSet.ext_mem
  intro x
  constructor
  · apply reach_induction (motive := (· ∈ edges.reach seeds label))
    · exact fun id member => mem_reach_of_mem member
    · intro id next reached step
      rw [Step, same id reached] at step
      exact mem_reach_of_step reached step
  · intro reached
    -- A step is the same afterwards only within the old reach, so both are carried along.
    have both : x ∈ edges.reach seeds label ∧ x ∈ after.reach seeds label := by
      refine reach_induction (motive := fun id => id ∈ edges.reach seeds label ∧
        id ∈ after.reach seeds label) ?seed ?step reached
      case seed => exact fun id member => ⟨mem_reach_of_mem member, mem_reach_of_mem member⟩
      case step =>
        rintro id next ⟨before, now⟩ step
        have kept : after.Step label id next := by rwa [Step, same id before]
        exact ⟨mem_reach_of_step before step, mem_reach_of_step now kept⟩
    exact both.2

end Adjacency

/-- No report of a label lists an object of a set. -/
def Unlisted (reports : List Report) (label : Label) (ids : IdSet) : Prop :=
  ∀ report ∈ reports, report.label = label → ∀ x ∈ report.targets, x ∉ ids

theorem unlisted_cons_iff {report : Report} {rest : List Report} {label : Label} {ids : IdSet} :
    Unlisted (report :: rest) label ids ↔
      (report.label = label → ∀ x ∈ report.targets, x ∉ ids) ∧ Unlisted rest label ids :=
  List.forall_mem_cons

namespace Graph

variable {graph : Graph} {source : ObjectId} {seeds : List ObjectId} {label : Label}

/-! ## Neighbours -/

/-- No edge of what is reached has a source at its end that is not reached. -/
theorem not_between_of_outside (outside : source ∉ graph.reach seeds label) {id x : ObjectId}
    (reached : id ∈ graph.reach seeds label) (joined : x ∈ graph.neighbours id label)
    (targets : IdSet) : ¬Between source targets id x := by
  rintro (⟨rfl, _⟩ | ⟨_, rfl⟩)
  · exact outside reached
  · exact outside (Adjacency.mem_reach_of_step reached joined)

theorem neighbours_receive_of_outside (outside : source ∉ graph.reach seeds label)
    {report : Report}
    (unlisted : report.label = label → ∀ x ∈ report.targets, x ∉ graph.reach seeds label)
    {id : ObjectId} (reached : id ∈ graph.reach seeds label) :
    (graph.receive source report).1.neighbours id label = graph.neighbours id label := by
  by_cases same : report.label = label
  · subst same
    unfold receive
    split
    · rfl
    · apply Std.ExtTreeSet.ext_mem
      intro x
      rw [mem_neighbours_apply]
      constructor
      · rintro (⟨_, ⟨rfl, _⟩ | ⟨listed, _⟩⟩ | ⟨_, member⟩)
        · exact absurd reached outside
        · exact absurd reached (unlisted rfl id listed)
        · exact member
      · intro member
        exact Or.inr ⟨fun withdrawn =>
          not_between_of_outside outside reached member _ withdrawn.2, member⟩
  · exact neighbours_receive_of_ne graph source same id

theorem neighbours_remove_of_outside (outside : source ∉ graph.reach seeds label)
    {id : ObjectId} (reached : id ∈ graph.reach seeds label) :
    (graph.remove source).graph.neighbours id label = graph.neighbours id label := by
  apply Std.ExtTreeSet.ext_mem
  intro x
  rw [mem_neighbours_remove]
  constructor
  · exact And.right
  · exact fun member => ⟨not_between_of_outside outside reached member _, member⟩

/-! ## Reaches -/

theorem reach_receive_of_outside (outside : source ∉ graph.reach seeds label) {report : Report}
    (unlisted : report.label = label → ∀ x ∈ report.targets, x ∉ graph.reach seeds label) :
    (graph.receive source report).1.reach seeds label = graph.reach seeds label :=
  Adjacency.reach_eq_of_neighbours_eq fun _ => neighbours_receive_of_outside outside unlisted

/-- An update of a source that is not reached, with no object listed that is reached,
leaves the reach. -/
theorem reach_update_of_outside (outside : source ∉ graph.reach seeds label)
    {reports : List Report} (unlisted : Unlisted reports label (graph.reach seeds label)) :
    (graph.update source reports).graph.reach seeds label = graph.reach seeds label := by
  induction reports generalizing graph with
  | nil => rfl
  | cons report rest ih =>
      rw [unlisted_cons_iff] at unlisted
      have first := reach_receive_of_outside outside unlisted.1
      rw [← first] at outside unlisted
      rw [update_cons, ih outside unlisted.2, first]

theorem reach_remove_of_outside (outside : source ∉ graph.reach seeds label) :
    (graph.remove source).graph.reach seeds label = graph.reach seeds label :=
  Adjacency.reach_eq_of_neighbours_eq fun _ => neighbours_remove_of_outside outside

/-- An update leaves what is reached along the labels that it does not mention. -/
theorem reach_update_of_not_mem {reports : List Report}
    (absent : label ∉ reports.map Report.label) :
    (graph.update source reports).graph.reach seeds label = graph.reach seeds label :=
  Adjacency.reach_eq_of_neighbours_eq fun id _ =>
    neighbours_update_of_not_mem graph source absent id

/-! ## Links -/

/-- Links stay if neither their unit nor what is reached from it changes. -/
theorem links_update_of_outside {id : ObjectId} {reports : List Report}
    (outside : source ∉ graph.reach (graph.unit id).toList label)
    (apart : Unlisted reports graph.settings.expansion (graph.unit id))
    (unlisted : Unlisted reports label (graph.reach (graph.unit id).toList label)) :
    (graph.update source reports).graph.links id label = graph.links id label := by
  have stranger : source ∉ graph.unit id := fun inside =>
    outside (Adjacency.mem_reach_of_mem (Std.ExtTreeSet.mem_toList.mpr inside))
  have unit_eq : (graph.update source reports).graph.unit id = graph.unit id := by
    rw [unit, settings_update]
    exact reach_update_of_outside stranger apart
  have linked_eq : (graph.update source reports).graph.linked id label =
      graph.linked id label := by
    simp only [linked, settings_update, unit_eq, reach_update_of_outside outside unlisted]
  rw [links, links, linked_eq]

/-- What is reached from some objects along a label stays the same when a source that is
not reached reports no reached object under the label, when such a source is removed, and
when a source reports nothing at all under the label.  So the links of an object stay when
a source outside of all that is reached from its unit lists, under the expansion label,
nothing of the unit and, under the label of the links, nothing that is reached. -/
theorem unrelated_changes_leave_reach_and_links (graph : Graph) (source : ObjectId) :
    (∀ seeds label reports, source ∉ graph.reach seeds label →
      Unlisted reports label (graph.reach seeds label) →
        (graph.update source reports).graph.reach seeds label = graph.reach seeds label) ∧
    (∀ seeds label, source ∉ graph.reach seeds label →
      (graph.remove source).graph.reach seeds label = graph.reach seeds label) ∧
    (∀ seeds label reports, label ∉ reports.map Report.label →
      (graph.update source reports).graph.reach seeds label = graph.reach seeds label) ∧
    (∀ id label reports, source ∉ graph.reach (graph.unit id).toList label →
      Unlisted reports graph.settings.expansion (graph.unit id) →
      Unlisted reports label (graph.reach (graph.unit id).toList label) →
        (graph.update source reports).graph.links id label = graph.links id label) := by
  refine ⟨?update, ?remove, ?unmentioned, ?links⟩
  case update =>
    intro seeds label reports outside unlisted
    exact reach_update_of_outside outside unlisted
  case remove =>
    intro seeds label outside
    exact reach_remove_of_outside outside
  case unmentioned =>
    intro seeds label reports absent
    exact reach_update_of_not_mem absent
  case links =>
    intro id label reports outside apart unlisted
    exact links_update_of_outside outside apart unlisted

/-! ## A volume beside a unit -/

/-- A deployment that has left a volume behind has its pod as its only company. -/
theorem mem_of_mem_reach_leftBehind {seeds : List ObjectId}
    (start : ∀ seed ∈ seeds, seed ∈ [Example.web, Example.pod]) {label : Label}
    (followed : label ∈ [Label.offshoot, .exposedBy]) {x : ObjectId}
    (reached : x ∈ ((fresh {}).run Example.leftBehind).reach seeds label) :
    x ∈ [Example.web, Example.pod] := by
  have closed : ∀ label ∈ [Label.offshoot, .exposedBy], ∀ id ∈ [Example.web, Example.pod],
      ∀ next ∈ (((fresh {}).run Example.leftBehind).neighbours id label).toList,
        next ∈ [Example.web, Example.pod] := by
    decide +kernel
  exact Adjacency.mem_of_mem_reach start (closed label followed) reached

/-- Under the labels of interest the volume lists nobody but itself. -/
theorem unlisted_byItself {label : Label} (followed : label ∈ [Label.offshoot, .exposedBy])
    {ids : IdSet} (outside : Example.disk ∉ ids) : Unlisted Example.byItself label ids := by
  have alone : ∀ report ∈ Example.byItself, report.label ∈ [Label.offshoot, .exposedBy] →
      ∀ x ∈ report.targets.toList, x = Example.disk := by
    decide +kernel
  rintro report member rfl x listed
  rwa [alone report member followed x (Std.ExtTreeSet.mem_toList.mpr listed)]

/-- The volume that is left behind reports and is removed. -/
theorem web_apart_from_disk :
    (Example.disk ∉ ((fresh {}).run Example.leftBehind).reach [Example.web] .offshoot ∧
      Unlisted Example.byItself .offshoot
        (((fresh {}).run Example.leftBehind).reach [Example.web] .offshoot) ∧
      (((fresh {}).run Example.leftBehind).update Example.disk
          Example.byItself).graph.reach [Example.web] .offshoot =
        ((fresh {}).run Example.leftBehind).reach [Example.web] .offshoot) ∧
    (((fresh {}).run Example.leftBehind).remove Example.disk).graph.reach
        [Example.web] .offshoot =
      ((fresh {}).run Example.leftBehind).reach [Example.web] .offshoot ∧
    (Label.exposedBy ∉ [Report.mk .offshoot {Example.web}].map Report.label ∧
      (((fresh {}).run Example.leftBehind).update Example.disk
          [⟨.offshoot, {Example.web}⟩]).graph.reach [Example.disk] .exposedBy =
        ((fresh {}).run Example.leftBehind).reach [Example.disk] .exposedBy) ∧
    (Example.disk ∉ ((fresh {}).run Example.leftBehind).reach
        (((fresh {}).run Example.leftBehind).unit Example.web).toList .exposedBy ∧
      Unlisted Example.byItself ((fresh {}).run Example.leftBehind).settings.expansion
        (((fresh {}).run Example.leftBehind).unit Example.web) ∧
      Unlisted Example.byItself .exposedBy (((fresh {}).run Example.leftBehind).reach
        (((fresh {}).run Example.leftBehind).unit Example.web).toList .exposedBy) ∧
      (((fresh {}).run Example.leftBehind).update Example.disk
          Example.byItself).graph.links Example.web .exposedBy =
        ((fresh {}).run Example.leftBehind).links Example.web .exposedBy) := by
  have stranger : Example.disk ∉ [Example.web, Example.pod] := by decide
  have outside : Example.disk ∉
      ((fresh {}).run Example.leftBehind).reach [Example.web] .offshoot :=
    fun reached => stranger (mem_of_mem_reach_leftBehind (by simp) (by decide) reached)
  have members : ∀ seed ∈ (((fresh {}).run Example.leftBehind).unit Example.web).toList,
      seed ∈ [Example.web, Example.pod] :=
    fun _ member => mem_of_mem_reach_leftBehind (by simp) (by decide)
      (Std.ExtTreeSet.mem_toList.mp member)
  have outsideLinks : Example.disk ∉ ((fresh {}).run Example.leftBehind).reach
      (((fresh {}).run Example.leftBehind).unit Example.web).toList .exposedBy :=
    fun reached => stranger (mem_of_mem_reach_leftBehind members (by decide) reached)
  have apart : Unlisted Example.byItself .offshoot
      (((fresh {}).run Example.leftBehind).reach [Example.web] .offshoot) :=
    unlisted_byItself (by decide) outside
  have unlisted : Unlisted Example.byItself .exposedBy (((fresh {}).run
      Example.leftBehind).reach (((fresh {}).run Example.leftBehind).unit Example.web).toList
        .exposedBy) :=
    unlisted_byItself (by decide) outsideLinks
  have unmentioned : Label.exposedBy ∉ [Report.mk .offshoot {Example.web}].map Report.label := by
    decide
  obtain ⟨updated, removed, ignored, linked⟩ :=
    unrelated_changes_leave_reach_and_links ((fresh {}).run Example.leftBehind) Example.disk
  exact ⟨⟨outside, apart, updated _ _ _ outside apart⟩, removed _ _ outside,
    ⟨unmentioned, ignored _ _ _ unmentioned⟩,
    outsideLinks, apart, unlisted, linked _ _ _ outsideLinks apart unlisted⟩

end Graph

end InventoryGraph
