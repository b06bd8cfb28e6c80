import InventoryGraph.Proofs.Ledger
import InventoryGraph.Proofs.SkipRule

/-!
# Repeated reports

After a report, skipped or not, the last report of its source reflects it, and has some
object if the report lists any (`Heard`).  Reports under other labels leave this so, and
with one report for each label, all reports of an update have been heard in the end
(`heard_update`).

What has been heard has no effect when it is reported again (`receive_of_heard`).  It is
skipped, with one exception: the subset rule skips no report of nothing, so such a report is
applied once more, to nothing.  Hence an update that is made again at once leaves
everything as it is stored (`update_repeats`).
-/

namespace InventoryGraph

/-- What becomes of a report that has been heard. -/
def SkipRule.again (rule : SkipRule) (targets : IdSet) : Outcome :=
  if rule = .subset ∧ targets = ∅ then .applied 0 0 0 0 else .skipped

/-- Outcomes without effect are counted by whether they are skipped. -/
theorem Tally.ofOutcomes_map_again (rule : SkipRule) (reports : List Report) :
    ofOutcomes (reports.map fun report => rule.again report.targets) =
      { changed := reports.countP fun report => rule = .subset ∧ report.targets = ∅
        skipped := reports.countP fun report => ¬(rule = .subset ∧ report.targets = ∅) } := by
  induction reports with
  | nil => rfl
  | cons report rest ih =>
      rw [List.map_cons, ofOutcomes_cons, ih, List.countP_cons, List.countP_cons,
        SkipRule.again]
      by_cases idle : rule = .subset ∧ report.targets = ∅
      · rw [if_pos idle]
        ext <;> simp [ofOutcome, count, idle, Nat.add_comm]
      · rw [if_neg idle, if_neg fun told => idle (of_decide_eq_true told),
          if_pos (decide_eq_true idle)]
        ext <;> simp [ofOutcome, count, Nat.add_comm]

namespace Graph

variable {graph : Graph} {source : ObjectId} {report : Report}

/-! ## What has been heard -/

/-- A graph has heard a report: the last report reflects it, and is not nothing unless it
is. -/
structure Heard (graph : Graph) (source : ObjectId) (report : Report) : Prop where
  reflects : graph.settings.skip.Reflects (graph.lastReport source report.label) report.targets
  live : report.targets ≠ ∅ → graph.lastReport source report.label ≠ ∅

/-- The last report is never nothing after a report of something. -/
theorem lastReport_receive_ne_empty (tidy : graph.TidyReports) (occupied : report.targets ≠ ∅) :
    (graph.receive source report).1.lastReport source report.label ≠ ∅ := by
  unfold receive
  split
  · rename_i skipped
    cases rule : graph.settings.skip with
    | equality =>
        rw [rule, skips_equality_iff tidy] at skipped
        rwa [skipped]
    | subset =>
        rw [rule, skips_subset_iff tidy] at skipped
        exact skipped.1
  · rwa [lastReport_apply, if_pos ⟨rfl, rfl⟩]

theorem heard_receive (tidy : graph.TidyReports) :
    (graph.receive source report).1.Heard source report where
  reflects := by
    rw [settings_receive]
    exact reflects_receive graph source report
  live := lastReport_receive_ne_empty tidy

/-- What has been heard stays heard after a report under another label. -/
theorem Heard.receive_of_ne (heard : graph.Heard source report) {other : Report}
    (different : other.label ≠ report.label) :
    (graph.receive source other).1.Heard source report := by
  have last : (graph.receive source other).1.lastReport source report.label =
      graph.lastReport source report.label :=
    lastReport_receive_of_ne graph fun same => different same.2
  constructor
  · rw [settings_receive, last]
    exact heard.reflects
  · rw [last]
    exact heard.live

theorem Heard.update_of_not_mem (heard : graph.Heard source report) {others : List Report}
    (absent : report.label ∉ others.map Report.label) :
    (graph.update source others).graph.Heard source report := by
  induction others generalizing graph with
  | nil => exact heard
  | cons other rest ih =>
      rw [List.map_cons, List.mem_cons, not_or] at absent
      exact ih (heard.receive_of_ne (Ne.symm absent.1)) absent.2

/-- With one report for each label, all reports of an update have been heard after it. -/
theorem heard_update (tidy : graph.TidyReports) {reports : List Report}
    (distinct : (reports.map Report.label).Nodup) :
    ∀ report ∈ reports, (graph.update source reports).graph.Heard source report := by
  induction reports generalizing graph with
  | nil => simp
  | cons first rest ih =>
      rw [List.map_cons, List.nodup_cons] at distinct
      rw [List.forall_mem_cons]
      constructor
      · exact (heard_receive tidy).update_of_not_mem distinct.1
      · exact ih (tidyReports_invariant.receive tidy trivial) distinct.2

/-! ## Hearing it again -/

/-- Nothing but nothing reflects a report of nothing. -/
theorem Heard.silent (heard : graph.Heard source report) (vacant : report.targets = ∅) :
    graph.lastReport source report.label = ∅ := by
  have reflects := heard.reflects
  rw [vacant] at reflects
  cases rule : graph.settings.skip with
  | equality =>
      rw [rule] at reflects
      exact reflects
  | subset =>
      rw [rule] at reflects
      apply Std.ExtTreeSet.eq_empty_iff_forall_not_mem.mpr
      intro x member
      simpa using reflects x member

/-- What has been heard is skipped, unless it is nothing and the subset rule holds. -/
theorem Heard.skips_iff (heard : graph.Heard source report) (tidy : graph.TidyReports) :
    graph.settings.skip.skips (graph.reports.find? source report.label) report.targets = true ↔
      ¬(graph.settings.skip = .subset ∧ report.targets = ∅) := by
  have reflects := heard.reflects
  cases rule : graph.settings.skip with
  | equality =>
      rw [rule] at reflects
      rw [skips_equality_iff tidy]
      simp only [reduceCtorEq, false_and, not_false_eq_true, iff_true]
      exact reflects
  | subset =>
      rw [rule] at reflects
      rw [skips_subset_iff tidy]
      constructor
      · rintro ⟨occupied, _⟩ ⟨_, vacant⟩
        exact occupied (heard.silent vacant)
      · intro told
        exact ⟨heard.live fun vacant => told ⟨rfl, vacant⟩, reflects⟩

/-- What has been heard has no effect when it is reported again. -/
theorem receive_of_heard (tidy : graph.TidyReports) (heard : graph.Heard source report) :
    graph.receive source report = (graph, graph.settings.skip.again report.targets) := by
  by_cases idle : graph.settings.skip = .subset ∧ report.targets = ∅
  · have told := (not_congr (heard.skips_iff tidy)).mpr (not_not_intro idle)
    rw [receive, if_neg told, SkipRule.again, if_pos idle]
    obtain ⟨label, targets⟩ := report
    obtain ⟨_, rfl⟩ := idle
    exact apply_empty_of_silent tidy (heard.silent rfl)
  · rw [receive, if_pos ((heard.skips_iff tidy).mpr idle), SkipRule.again, if_neg idle]

theorem update_of_heard (tidy : graph.TidyReports) {reports : List Report}
    (heard : ∀ report ∈ reports, graph.Heard source report) :
    graph.update source reports =
      ⟨graph, reports.map fun report =>
        (report.label, graph.settings.skip.again report.targets)⟩ := by
  induction reports with
  | nil => rfl
  | cons first rest ih =>
      rw [List.forall_mem_cons] at heard
      rw [update_cons, receive_of_heard tidy heard.1, ih heard.2]
      rfl

/-! ## Repeated updates -/

/-- A call of some reports is a repetition: it leaves the graph as it finds it, and each
report has the outcome of one that has been heard. -/
structure Repeats (before : Graph) (reports : List Report) (call : Applied) : Prop where
  graph : call.graph = before
  outcomes : call.outcomes = reports.map fun report =>
    (report.label, before.settings.skip.again report.targets)
  noop : call.tally.added = 0 ∧ call.tally.removed = 0
  /-- By the equality rule all reports are skipped. -/
  equality : before.settings.skip = .equality → call.tally = { skipped := reports.length }
  /-- By the subset rule all but those of nothing are, and these have no effect. -/
  subset : before.settings.skip = .subset →
    call.tally =
      { changed := reports.countP fun report => report.targets = ∅
        skipped := reports.countP fun report => report.targets ≠ ∅ }

theorem repeats_update_of_heard (tidy : graph.TidyReports) {reports : List Report}
    (heard : ∀ report ∈ reports, graph.Heard source report) :
    Repeats graph reports (graph.update source reports) := by
  have again := update_of_heard tidy heard
  have tally_eq : (graph.update source reports).tally =
      { changed := reports.countP fun report =>
          graph.settings.skip = .subset ∧ report.targets = ∅
        skipped := reports.countP fun report =>
          ¬(graph.settings.skip = .subset ∧ report.targets = ∅) } := by
    rw [Applied.tally, again, List.map_map]
    exact Tally.ofOutcomes_map_again graph.settings.skip reports
  constructor
  case graph => rw [again]
  case outcomes => rw [again]
  case noop => simp [tally_eq]
  case equality =>
    intro rule
    simp [tally_eq, rule]
  case subset =>
    intro rule
    simp [tally_eq, rule]

/-- After every history, an update with one report for each label can be made again at once
without any effect: edges and last reports stay as they are stored, no edge is counted as
added or removed, and the reports count as skipped, by the subset rule those of nothing
excepted. -/
theorem update_repeats (settings : Settings) (changes : List Change) (source : ObjectId)
    {reports : List Report} (distinct : (reports.map Report.label).Nodup) :
    Repeats (((fresh settings).run changes).update source reports).graph reports
      ((((fresh settings).run changes).update source reports).graph.update source reports) := by
  have tidy := tidyReports_run settings changes
  exact repeats_update_of_heard (tidyReports_invariant.update tidy fun _ _ => trivial)
    (heard_update tidy distinct)

/-- A deployment makes reports twice, by either rule.  They withdraw a pod under one label,
change what it lists under another and start on a third. -/
theorem web_repeats_secondThoughts :
    (Example.secondThoughts.map Report.label).Nodup ∧
    Repeats (((fresh {}).run Example.twoLabels).update Example.web Example.secondThoughts).graph
      Example.secondThoughts
      ((((fresh {}).run Example.twoLabels).update Example.web
        Example.secondThoughts).graph.update Example.web Example.secondThoughts) ∧
    Repeats (((fresh { skip := .subset }).run Example.twoLabels).update Example.web
        Example.secondThoughts).graph
      Example.secondThoughts
      ((((fresh { skip := .subset }).run Example.twoLabels).update Example.web
        Example.secondThoughts).graph.update Example.web Example.secondThoughts) := by
  have distinct : (Example.secondThoughts.map Report.label).Nodup := by decide
  exact ⟨distinct, update_repeats {} Example.twoLabels Example.web distinct,
    update_repeats { skip := .subset } Example.twoLabels Example.web distinct⟩

end Graph

end InventoryGraph
