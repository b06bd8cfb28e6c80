import InventoryGraph.Proofs.Change

/-!
# Edges and the reports behind them

The edges and the last reports of a graph are stored apart and nothing counts how
many reports speak for an edge.  Still no edge outlives its reports: one of its
ends has the other in its last report (`Backed`).

The converse needs care, as an edge that both ends report goes when either end
withdraws it.  It holds for a pair that at most one end ever lists: then the edge
is there exactly while that end's last report has it (`Mirrored`).
-/

namespace InventoryGraph.Graph

/-! ## No edge without a report -/

/-- Each edge is in the last report of one of its ends. -/
def Backed (graph : Graph) : Prop :=
  ∀ id label x, x ∈ graph.neighbours id label →
    x ∈ graph.lastReport id label ∨ id ∈ graph.lastReport x label

variable {graph : Graph}

/-- A report keeps what the last reports hold, but for what it withdraws. -/
theorem mem_lastReport_apply_or_withdrawn {id x : ObjectId} {label : Label}
    (member : x ∈ graph.lastReport id label) (source : ObjectId) (report : Report) :
    x ∈ (graph.apply source report).1.lastReport id label ∨
      (label = report.label ∧ id = source ∧
        x ∈ graph.lastReport source report.label \ report.targets) := by
  rw [lastReport_apply]
  by_cases own : source = id ∧ report.label = label
  · obtain ⟨rfl, rfl⟩ := own
    simp only [and_self, if_true, true_and, Std.ExtTreeSet.mem_diff_iff]
    by_cases target : x ∈ report.targets
    · exact Or.inl target
    · exact Or.inr ⟨member, target⟩
  · rw [if_neg own]
    exact Or.inl member

theorem backed_apply (backed : graph.Backed) (source : ObjectId) (report : Report) :
    (graph.apply source report).1.Backed := by
  intro id label x member
  rcases (mem_neighbours_apply graph source report id label x).mp member with
    ⟨rfl, listed⟩ | ⟨kept, old⟩
  · simp only [lastReport_apply]
    rcases listed with ⟨rfl, listed⟩ | ⟨listed, rfl⟩
    · exact Or.inl (by simpa using listed)
    · exact Or.inr (by simpa using listed)
  · -- What backed the edge before has not been withdrawn, or the edge would have gone.
    rcases backed id label x old with backing | backing
    · rcases mem_lastReport_apply_or_withdrawn backing source report with
        backing | ⟨same, rfl, withdrawn⟩
      · exact Or.inl backing
      · exact absurd ⟨same, Or.inl ⟨rfl, withdrawn⟩⟩ kept
    · rcases mem_lastReport_apply_or_withdrawn backing source report with
        backing | ⟨same, rfl, withdrawn⟩
      · exact Or.inr backing
      · exact absurd ⟨same, Or.inr ⟨withdrawn, rfl⟩⟩ kept

theorem backed_remove (backed : graph.Backed) (source : ObjectId) :
    (graph.remove source).graph.Backed := by
  intro id label x member
  obtain ⟨kept, old⟩ := (mem_neighbours_remove graph source id label x).mp member
  simp only [lastReport_remove]
  rcases backed id label x old with backing | backing
  · have other : source ≠ id := by
      rintro rfl
      exact kept (Or.inl ⟨rfl, backing⟩)
    exact Or.inl (by rwa [if_neg other])
  · have other : source ≠ x := by
      rintro rfl
      exact kept (Or.inr ⟨backing, rfl⟩)
    exact Or.inr (by rwa [if_neg other])

theorem backed_fresh (settings : Settings) : (fresh settings).Backed := by
  intro id label x member
  simp [fresh, neighbours] at member

theorem backed_invariant : Invariant (fun _ _ => True) Backed where
  apply _ source report _ backed := backed_apply backed source report
  remove _ source backed := backed_remove backed source
  clear graph _ := backed_fresh graph.settings

theorem backed_run (settings : Settings) (changes : List Change) :
    ((fresh settings).run changes).Backed :=
  backed_invariant.run_always (backed_fresh settings) changes

/-- After every history, under all settings, an edge is in the last report of one
of its ends. -/
theorem mem_lastReport_of_mem_neighbours_run (settings : Settings) (changes : List Change)
    (id : ObjectId) (label : Label) (x : ObjectId)
    (member : x ∈ ((fresh settings).run changes).neighbours id label) :
    x ∈ ((fresh settings).run changes).lastReport id label ∨
      id ∈ ((fresh settings).run changes).lastReport x label :=
  backed_run settings changes id label x member

/-- An edge of the deployment that its pod alone backs. -/
theorem backed_by_pod_alone :
    Example.pod ∈ ((fresh {}).run Example.anew).neighbours Example.web .offshoot ∧
      (Example.pod ∈ ((fresh {}).run Example.anew).lastReport Example.web .offshoot ∨
        Example.web ∈ ((fresh {}).run Example.anew).lastReport Example.pod .offshoot) := by
  have member :
      Example.pod ∈ ((fresh {}).run Example.anew).neighbours Example.web .offshoot := by
    decide +kernel
  exact ⟨member, mem_lastReport_of_mem_neighbours_run {} Example.anew _ _ _ member⟩

/-! ## Pairs that one end lists -/

/-- A source lists only what `lists` has of it. -/
def Listing (lists : ObjectId → Label → ObjectId → Prop) (source : ObjectId)
    (report : Report) : Prop :=
  ∀ x ∈ report.targets, lists source report.label x

/-- Last reports are within `lists`, and where the other end of a pair does not
list the one, the edge is there exactly while the one's last report has it. -/
structure Mirrored (lists : ObjectId → Label → ObjectId → Prop) (graph : Graph) : Prop where
  listed : ∀ id label x, x ∈ graph.lastReport id label → lists id label x
  mem_iff : ∀ id label x, id = x ∨ ¬lists x label id →
    (x ∈ graph.neighbours id label ↔ x ∈ graph.lastReport id label)

variable {lists : ObjectId → Label → ObjectId → Prop}

theorem mirrored_apply (mirrored : Mirrored lists graph) {source : ObjectId} {report : Report}
    (listing : Listing lists source report) :
    Mirrored lists (graph.apply source report).1 := by
  constructor
  · intro id label x member
    rw [lastReport_apply] at member
    split at member
    · rename_i same
      obtain ⟨rfl, rfl⟩ := same
      exact listing x member
    · exact mirrored.listed id label x member
  · intro id label x oneSided
    have before := mirrored.mem_iff id label x oneSided
    rw [mem_neighbours_apply, lastReport_apply]
    unfold Between
    simp only [Std.ExtTreeSet.mem_diff_iff]
    by_cases own : source = id ∧ report.label = label
    · obtain ⟨rfl, rfl⟩ := own
      grind
    · -- The other end neither lists nor withdraws the pair.
      have untouched : ¬(x = source ∧ label = report.label ∧
          (id ∈ report.targets ∨ id ∈ graph.lastReport source report.label)) := by
        rintro ⟨rfl, rfl, touched⟩
        rcases oneSided with rfl | unlisted
        · exact own ⟨rfl, rfl⟩
        · rcases touched with now | last
          · exact unlisted (listing id now)
          · exact unlisted (mirrored.listed x report.label id last)
      rw [if_neg own]
      grind

theorem mirrored_remove (mirrored : Mirrored lists graph) (source : ObjectId) :
    Mirrored lists (graph.remove source).graph := by
  constructor
  · intro id label x member
    rw [lastReport_remove] at member
    split at member
    · simp at member
    · exact mirrored.listed id label x member
  · intro id label x oneSided
    have before := mirrored.mem_iff id label x oneSided
    rw [mem_neighbours_remove, lastReport_remove]
    unfold Between
    by_cases own : source = id
    · subst own
      simp only [if_true, Std.ExtTreeSet.not_mem_empty, iff_false]
      grind
    · have untouched : ¬(x = source ∧ id ∈ graph.lastReport source label) := by
        rintro ⟨rfl, last⟩
        rcases oneSided with rfl | unlisted
        · exact own rfl
        · exact unlisted (mirrored.listed x label id last)
      rw [if_neg own]
      grind

theorem mirrored_fresh (settings : Settings) : Mirrored lists (fresh settings) := by
  constructor <;> intros <;> simp_all [fresh, neighbours, lastReport]

theorem mirrored_invariant : Invariant (Listing lists) (Mirrored lists) where
  apply _ _ _ listing mirrored := mirrored_apply mirrored listing
  remove _ source mirrored := mirrored_remove mirrored source
  clear graph _ := mirrored_fresh graph.settings

/-- The updates of a history list what they list. -/
theorem within_listing {changes : List Change}
    (covered : ∀ source label x, Lists changes source label x → lists source label x) :
    ∀ change ∈ changes, change.Within (Listing lists) := by
  intro change member
  cases change with
  | update source reports =>
      intro report given x target
      exact covered source report.label x ⟨reports, member, report, given, rfl, target⟩
  | remove source => trivial
  | clear => trivial

theorem mirrored_run (settings : Settings) {changes : List Change}
    (covered : ∀ source label x, Lists changes source label x → lists source label x) :
    Mirrored lists ((fresh settings).run changes) :=
  mirrored_invariant.run (mirrored_fresh settings) (within_listing covered)

/-- A pair that is one object, or whose other end no update of the history makes
list the one, is joined exactly when the last report of the one has the other,
whatever else has been reported, withdrawn and skipped. -/
theorem mem_neighbours_run_iff_mem_lastReport (settings : Settings) {changes : List Change}
    {id x : ObjectId} {label : Label} (oneSided : id = x ∨ ¬Lists changes x label id) :
    x ∈ ((fresh settings).run changes).neighbours id label ↔
      x ∈ ((fresh settings).run changes).lastReport id label :=
  (mirrored_run settings fun _ _ _ listed => listed).mem_iff id label x oneSided

/-- What others do meanwhile leaves the edge from the deployment to its pod as it
was last reported. -/
theorem edge_among_bystanders :
    (Example.web = Example.pod ∨
      ¬Lists Example.bystanders Example.pod .offshoot Example.web) ∧
    (Example.pod ∈ ((fresh {}).run Example.bystanders).neighbours Example.web .offshoot ↔
      Example.pod ∈ ((fresh {}).run Example.bystanders).lastReport Example.web .offshoot) := by
  have oneSided : Example.web = Example.pod ∨
      ¬Lists Example.bystanders Example.pod .offshoot Example.web := by
    right
    simp [Lists, Example.bystanders, Example.web, Example.pod, Example.disk, Label.offshoot,
      Label.storage]
  exact ⟨oneSided, mem_neighbours_run_iff_mem_lastReport {} oneSided⟩

end InventoryGraph.Graph
