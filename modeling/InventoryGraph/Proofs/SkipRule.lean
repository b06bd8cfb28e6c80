import InventoryGraph.Proofs.Frame
import InventoryGraph.Proofs.Withdrawal

/-!
# The skip rules side by side

A report can be received by either rule, from the same edges and last reports.  As no last
report is stored empty, each rule asks a question about sets: by the equality rule a report
is skipped if it has the objects of the last one (`skips_equality_iff`), by the subset rule
if it has them among others and there are any (`skips_subset_iff`).

The answers differ in two cases.  A report of nothing after nothing is skipped by the
equality rule alone; to apply it changes nothing either (`apply_empty_of_silent`), so only the
tallies differ.  A report that only adds to the last one (`Extends`) is skipped by the
subset rule alone, and what it adds is missed.
-/

namespace InventoryGraph

/-- A set of objects has all of a nonempty set, and more. -/
structure Extends (last targets : IdSet) : Prop where
  live : last ≠ ∅
  kept : ∀ x ∈ last, x ∈ targets
  more : last ≠ targets

namespace Graph

/-- The graph as it is, with another rule to skip reports. -/
def withRule (graph : Graph) (rule : SkipRule) : Graph :=
  { graph with settings := { graph.settings with skip := rule } }

variable {graph : Graph} {source : ObjectId} {report : Report}

/-! ## What is skipped -/

theorem skips_equality_iff (tidy : graph.TidyReports) :
    SkipRule.equality.skips (graph.reports.find? source report.label) report.targets = true ↔
      graph.lastReport source report.label = report.targets := by
  rw [tidy.entries.find?_eq, ← lastReport]
  split
  · rename_i vacant
    rw [vacant, SkipRule.skips, Std.ExtTreeSet.isEmpty_iff, eq_comm]
  · simp [SkipRule.skips]

theorem skips_subset_iff (tidy : graph.TidyReports) :
    SkipRule.subset.skips (graph.reports.find? source report.label) report.targets = true ↔
      graph.lastReport source report.label ≠ ∅ ∧
        ∀ x ∈ graph.lastReport source report.label, x ∈ report.targets := by
  rw [tidy.entries.find?_eq, ← lastReport]
  split
  · rename_i vacant
    simp [SkipRule.skips, vacant]
  · rename_i live
    simp [SkipRule.skips, live, List.all_eq_true]

theorem receive_withRule (graph : Graph) (rule : SkipRule) (source : ObjectId)
    (report : Report) :
    (graph.withRule rule).receive source report =
      if rule.skips (graph.reports.find? source report.label) report.targets then
        (graph.withRule rule, .skipped)
      else
        ((graph.apply source report).1.withRule rule, (graph.apply source report).2) :=
  rfl

/-- The rules skip the same reports, but for one that only adds to the last one and one of
nothing after nothing. -/
theorem skips_subset_eq_skips_equality (tidy : graph.TidyReports)
    (unextended : ¬Extends (graph.lastReport source report.label) report.targets)
    (occupied : ¬(graph.lastReport source report.label = ∅ ∧ report.targets = ∅)) :
    SkipRule.subset.skips (graph.reports.find? source report.label) report.targets =
      SkipRule.equality.skips (graph.reports.find? source report.label) report.targets := by
  rw [Bool.eq_iff_iff, skips_subset_iff tidy, skips_equality_iff tidy]
  constructor
  · rintro ⟨live, kept⟩
    by_contra more
    exact unextended ⟨live, kept, more⟩
  · intro same
    rw [same] at occupied ⊢
    exact ⟨fun vacant => occupied ⟨vacant, vacant⟩, fun _ member => member⟩

/-! ## What becomes of a report -/

/-- A graph after a report, received by a given rule. -/
def told (graph : Graph) (rule : SkipRule) (source : ObjectId) (report : Report) : Applied :=
  (graph.withRule rule).update source [report]

theorem told_of_skips {rule : SkipRule}
    (skipped : rule.skips (graph.reports.find? source report.label) report.targets = true) :
    graph.told rule source report = ⟨graph.withRule rule, [(report.label, .skipped)]⟩ := by
  rw [told, update_cons, receive_withRule, if_pos skipped]
  rfl

theorem told_of_not_skips {rule : SkipRule}
    (applied : ¬rule.skips (graph.reports.find? source report.label) report.targets = true) :
    graph.told rule source report =
      ⟨(graph.apply source report).1.withRule rule,
        [(report.label, (graph.apply source report).2)]⟩ := by
  rw [told, update_cons, receive_withRule, if_neg applied]
  rfl

/-- A report of nothing after nothing changes nothing. -/
theorem apply_empty_of_silent (tidy : graph.TidyReports) {label : Label}
    (silent : graph.lastReport source label = ∅) :
    graph.apply source ⟨label, ∅⟩ = (graph, .applied 0 0 0 0) := by
  have reports_eq : graph.reports.assign source label ∅ = graph.reports := by
    apply Adjacency.ext_find? (Adjacency.noEmptyRow_assign tidy.rows source label ∅) tidy.rows
    intro id other
    rw [Adjacency.find?_assign]
    split
    · rename_i same
      obtain ⟨rfl, rfl⟩ := same
      have vacant : graph.reports.neighbours source label = ∅ := silent
      rw [tidy.entries.find?_eq, if_pos vacant]
      simp
    · rfl
  rw [apply_empty, silent, reports_eq, Adjacency.unlinkAll_empty, IdSet.empty_inter]
  rfl

/-- Two results of a call agree in their edges, their last reports and their tallies. -/
structure SameTold (one other : Applied) : Prop where
  edges : one.graph.edges = other.graph.edges
  reports : one.graph.reports = other.graph.reports
  tally : one.tally = other.tally

theorem sameTold_of_not_extends (tidy : graph.TidyReports)
    (unextended : ¬Extends (graph.lastReport source report.label) report.targets)
    (occupied : ¬(graph.lastReport source report.label = ∅ ∧ report.targets = ∅)) :
    SameTold (graph.told .subset source report) (graph.told .equality source report) := by
  have same := skips_subset_eq_skips_equality tidy unextended occupied
  by_cases skipped : SkipRule.equality.skips (graph.reports.find? source report.label)
      report.targets = true
  · rw [told_of_skips skipped, told_of_skips (same.trans skipped)]
    exact ⟨rfl, rfl, rfl⟩
  · rw [told_of_not_skips skipped, told_of_not_skips (same ▸ skipped)]
    exact ⟨rfl, rfl, rfl⟩

/-- A report of nothing after nothing leaves the graph as it is by either rule, and counts
as skipped by the equality rule and as a change by the subset rule. -/
structure Idle (graph : Graph) (source : ObjectId) (report : Report) : Prop where
  equality : (graph.told .equality source report).graph = graph.withRule .equality
  subset : (graph.told .subset source report).graph = graph.withRule .subset
  skipped : (graph.told .equality source report).tally = { skipped := 1 }
  changed : (graph.told .subset source report).tally = { changed := 1 }

theorem idle_of_empty (tidy : graph.TidyReports)
    (silent : graph.lastReport source report.label = ∅) (vacant : report.targets = ∅) :
    Idle graph source report := by
  have skipped := (skips_equality_iff tidy).mpr (silent.trans vacant.symm)
  have applied : ¬SkipRule.subset.skips (graph.reports.find? source report.label)
      report.targets = true :=
    fun told => ((skips_subset_iff tidy).mp told).1 silent
  obtain ⟨label, targets⟩ := report
  subst vacant
  have unchanged := apply_empty_of_silent tidy silent
  constructor
  case equality => rw [told_of_skips skipped]
  case subset => rw [told_of_not_skips applied, unchanged]
  case skipped =>
    rw [told_of_skips skipped]
    rfl
  case changed =>
    rw [told_of_not_skips applied, unchanged]
    rfl

/-- By the subset rule a report is missed: nothing changes, while by the equality rule its
source is joined with all that it lists. -/
structure Missed (graph : Graph) (source : ObjectId) (report : Report) : Prop where
  untouched : (graph.told .subset source report).graph = graph.withRule .subset
  skipped : (graph.told .subset source report).tally = { skipped := 1 }
  joined : ∀ x ∈ report.targets,
    x ∈ (graph.told .equality source report).graph.neighbours source report.label ∧
      source ∈ (graph.told .equality source report).graph.neighbours x report.label
  last : (graph.told .equality source report).graph.lastReport source report.label =
    report.targets
  changed : (graph.told .equality source report).tally.changed = 1

theorem missed_of_extends (tidy : graph.TidyReports)
    (extending : Extends (graph.lastReport source report.label) report.targets) :
    Missed graph source report := by
  have skipped := (skips_subset_iff tidy).mpr ⟨extending.live, extending.kept⟩
  have applied : ¬SkipRule.equality.skips (graph.reports.find? source report.label)
      report.targets = true :=
    fun told => extending.more ((skips_equality_iff tidy).mp told)
  have replaced := replaces_apply graph source report
  constructor
  case untouched => rw [told_of_skips skipped]
  case skipped =>
    rw [told_of_skips skipped]
    rfl
  case joined =>
    intro x listed
    rw [told_of_not_skips applied]
    exact ⟨replaced.listed source x (Or.inl ⟨rfl, listed⟩),
      replaced.listed x source (Or.inr ⟨listed, rfl⟩)⟩
  case last =>
    rw [told_of_not_skips applied]
    exact replaced.last
  case changed =>
    rw [told_of_not_skips applied]
    rfl

/-- After every history, a report leaves the same edges, the same last reports and the same
tally by either rule, unless it only adds to the last report, or is a report of nothing
after nothing.  In the first case the subset rule misses it; in the second nothing changes
by either rule, and only the tallies differ. -/
theorem rules_differ_only_on_additions (settings : Settings) (changes : List Change)
    (source : ObjectId) (report : Report) :
    (Extends (((fresh settings).run changes).lastReport source report.label) report.targets →
      Missed ((fresh settings).run changes) source report) ∧
    (((fresh settings).run changes).lastReport source report.label = ∅ ∧ report.targets = ∅ →
      Idle ((fresh settings).run changes) source report) ∧
    (¬Extends (((fresh settings).run changes).lastReport source report.label) report.targets →
      ¬(((fresh settings).run changes).lastReport source report.label = ∅ ∧
        report.targets = ∅) →
      SameTold (((fresh settings).run changes).told .subset source report)
        (((fresh settings).run changes).told .equality source report)) := by
  have tidy := tidyReports_run settings changes
  exact ⟨missed_of_extends tidy, fun nothing => idle_of_empty tidy nothing.1 nothing.2,
    sameTold_of_not_extends tidy⟩

/-- A deployment adds a volume to a report of its pod, reports nothing under a new label, and
takes itself out of a report. -/
theorem disk_missed_by_subset :
    (Extends (((fresh {}).run Example.twoLabels).lastReport Example.web .offshoot)
        {Example.pod, Example.disk} ∧
      Missed ((fresh {}).run Example.twoLabels) Example.web
        ⟨.offshoot, {Example.pod, Example.disk}⟩) ∧
    ((((fresh {}).run Example.twoLabels).lastReport Example.web .exposedBy = ∅ ∧
        (∅ : IdSet) = ∅) ∧
      Idle ((fresh {}).run Example.twoLabels) Example.web ⟨.exposedBy, ∅⟩) ∧
    ¬Extends (((fresh {}).run Example.twoLabels).lastReport Example.web .storage)
        {Example.disk} ∧
    ¬(((fresh {}).run Example.twoLabels).lastReport Example.web .storage = ∅ ∧
        ({Example.disk} : IdSet) = ∅) ∧
    SameTold
      (((fresh {}).run Example.twoLabels).told .subset Example.web ⟨.storage, {Example.disk}⟩)
      (((fresh {}).run Example.twoLabels).told .equality Example.web
        ⟨.storage, {Example.disk}⟩) := by
  have pods : ((fresh {}).run Example.twoLabels).lastReport Example.web .offshoot =
      {Example.pod} := by
    decide +kernel
  have silent : ((fresh {}).run Example.twoLabels).lastReport Example.web .exposedBy = ∅ := by
    decide +kernel
  have stored : ((fresh {}).run Example.twoLabels).lastReport Example.web .storage =
      {Example.web, Example.disk} := by
    decide +kernel
  have extending : Extends (((fresh {}).run Example.twoLabels).lastReport Example.web .offshoot)
      {Example.pod, Example.disk} := by
    rw [pods]
    exact ⟨by decide, by simp, by decide⟩
  have unextended : ¬Extends (((fresh {}).run Example.twoLabels).lastReport Example.web .storage)
      {Example.disk} := by
    rw [stored]
    intro extending
    have kept := extending.kept Example.web (by simp)
    simp [Example.web, Example.disk] at kept
  have occupied : ¬(((fresh {}).run Example.twoLabels).lastReport Example.web .storage = ∅ ∧
      ({Example.disk} : IdSet) = ∅) := by
    rintro ⟨_, vacant⟩
    simp at vacant
  obtain ⟨missed, _, _⟩ := rules_differ_only_on_additions {} Example.twoLabels Example.web
    ⟨.offshoot, {Example.pod, Example.disk}⟩
  obtain ⟨_, idle, _⟩ := rules_differ_only_on_additions {} Example.twoLabels Example.web
    ⟨.exposedBy, ∅⟩
  obtain ⟨_, _, same⟩ := rules_differ_only_on_additions {} Example.twoLabels Example.web
    ⟨.storage, {Example.disk}⟩
  exact ⟨⟨extending, missed extending⟩, ⟨⟨silent, rfl⟩, idle ⟨silent, rfl⟩⟩, unextended,
    occupied, same unextended occupied⟩

end Graph

end InventoryGraph
