import InventoryGraph.Proofs.Change
import Mathlib.Data.List.Induction

/-!
# Last reports against the history

What a graph holds as the last report of a source under a label is written only
when a report is applied, and is dropped when the source reports nothing, is
removed, or all is cleared.  The history tells which report was the latest one
(`latest`), without regard to what was skipped.

Whatever the last report was before, after a report it has exactly the objects that
the report lists, or, by the subset rule, no others (`reflects_receive`).  Nothing
else but a removal of the source and a clearing touches it, so the last report
reflects the latest one at every moment (`lastReport_run_reflects_latest`).
-/

namespace InventoryGraph

/-! ## The latest report of a history -/

namespace Change

/-- Whether a change takes back all reports of a source. -/
def voids (source : ObjectId) : Change → Bool
  | .update _ _ => false
  | .remove id => id = source
  | .clear => true

/-- The reports of a source in a change, in their order. -/
def reportsOf (source : ObjectId) : Change → List Report
  | .update id reports => if id = source then reports else []
  | .remove _ => []
  | .clear => []

end Change

/-- The reports of a source since all its reports were last taken back, from the
latest to the earliest. -/
def reportsSince (changes : List Change) (source : ObjectId) : List Report :=
  (changes.reverse.takeWhile fun change => !change.voids source).flatMap fun change =>
    (change.reportsOf source).reverse

/-- The objects in the first of some reports of a label; none without such a
report. -/
def firstTargets (reports : List Report) (label : Label) : IdSet :=
  ((reports.find? fun report => report.label = label).map Report.targets).getD ∅

/-- The objects in the latest report of a source under a label since all its reports
were last taken back; none without such a report. -/
def latest (changes : List Change) (source : ObjectId) (label : Label) : IdSet :=
  firstTargets (reportsSince changes source) label

theorem reportsSince_concat (changes : List Change) (change : Change) (source : ObjectId) :
    reportsSince (changes ++ [change]) source =
      if change.voids source then []
      else (change.reportsOf source).reverse ++ reportsSince changes source := by
  cases voided : change.voids source <;> simp [reportsSince, voided]

theorem firstTargets_cons (report : Report) (rest : List Report) (label : Label) :
    firstTargets (report :: rest) label =
      if report.label = label then report.targets else firstTargets rest label := by
  by_cases same : report.label = label <;> simp [firstTargets, same]

/-! ## One report -/

/-- A last report that is kept by a rule reflects a report: it has the same objects, or,
by the subset rule, no others. -/
def SkipRule.Reflects (rule : SkipRule) (last targets : IdSet) : Prop :=
  match rule with
  | .equality => last = targets
  | .subset => ∀ x ∈ last, x ∈ targets

theorem SkipRule.reflects_self (rule : SkipRule) (targets : IdSet) :
    rule.Reflects targets targets := by
  cases rule with
  | equality => rfl
  | subset => exact fun _ member => member

/-- A report is skipped only if the last one reflects it as it is. -/
theorem SkipRule.reflects_of_skips {rule : SkipRule} {last : Option IdSet} {targets : IdSet}
    (skipped : rule.skips last targets = true) : rule.Reflects (last.getD ∅) targets := by
  cases rule with
  | equality =>
      cases last with
      | none => exact (Std.ExtTreeSet.isEmpty_iff.mp skipped).symm
      | some last =>
          have same : last = targets := by simpa [SkipRule.skips] using skipped
          exact same
  | subset =>
      cases last with
      | none => cases skipped
      | some last =>
          intro x member
          have listed : x ∈ last.toList := Std.ExtTreeSet.mem_toList.mpr member
          exact of_decide_eq_true (List.all_eq_true.mp skipped x listed)

namespace Graph

/-- After a report, skipped or not, the last report reflects it. -/
theorem reflects_receive (graph : Graph) (source : ObjectId) (report : Report) :
    graph.settings.skip.Reflects
      ((graph.receive source report).1.lastReport source report.label) report.targets := by
  unfold receive
  split
  · rename_i skipped
    exact SkipRule.reflects_of_skips skipped
  · rw [lastReport_apply, if_pos ⟨rfl, rfl⟩]
    exact graph.settings.skip.reflects_self report.targets

/-- A report leaves the last reports of other sources and of other labels. -/
theorem lastReport_receive_of_ne (graph : Graph) {source id : ObjectId} {report : Report}
    {label : Label} (different : ¬(source = id ∧ report.label = label)) :
    (graph.receive source report).1.lastReport id label = graph.lastReport id label := by
  unfold receive
  split
  · rfl
  · rw [lastReport_apply, if_neg different]

/-- An update leaves the last reports of other sources. -/
theorem lastReport_update_of_ne (graph : Graph) {source id : ObjectId} (different : source ≠ id)
    (reports : List Report) (label : Label) :
    (graph.update source reports).graph.lastReport id label = graph.lastReport id label := by
  induction reports generalizing graph with
  | nil => rfl
  | cons report rest ih =>
      rw [update_cons]
      exact (ih _).trans (lastReport_receive_of_ne graph fun same => different same.1)

/-! ## Histories -/

/-- The reports of an update come before the earlier ones. -/
theorem reflects_update (graph : Graph) {source : ObjectId} {label : Label}
    {earlier : List Report}
    (reflects : graph.settings.skip.Reflects (graph.lastReport source label)
      (firstTargets earlier label))
    (reports : List Report) :
    graph.settings.skip.Reflects ((graph.update source reports).graph.lastReport source label)
      (firstTargets (reports.reverse ++ earlier) label) := by
  induction reports generalizing graph earlier with
  | nil => exact reflects
  | cons report rest ih =>
      have next : (graph.receive source report).1.settings.skip.Reflects
          ((graph.receive source report).1.lastReport source label)
          (firstTargets (report :: earlier) label) := by
        rw [settings_receive, firstTargets_cons]
        by_cases same : report.label = label
        · subst same
          rw [if_pos rfl]
          exact reflects_receive graph source report
        · rw [if_neg same, lastReport_receive_of_ne graph fun both => same both.2]
          exact reflects
      have after := ih _ next
      rw [settings_receive] at after
      rwa [update_cons, List.reverse_cons, List.append_assoc, List.singleton_append]

theorem reflects_run (settings : Settings) (changes : List Change) (source : ObjectId)
    (label : Label) :
    settings.skip.Reflects (((fresh settings).run changes).lastReport source label)
      (latest changes source label) := by
  induction changes using List.reverseRecOn with
  | nil =>
      have nothing : (fresh settings).lastReport source label = ∅ := by
        simp [fresh, lastReport]
      rw [run_nil, nothing]
      exact settings.skip.reflects_self ∅
  | append_singleton changes change ih =>
      rw [run_append, run_cons, run_nil, latest, reportsSince_concat]
      cases change with
      | update id reports =>
          simp only [Graph.change, Change.voids, Change.reportsOf, Bool.false_eq_true, if_false]
          by_cases own : id = source
          · subst own
            have before : ((fresh settings).run changes).settings.skip = settings.skip := by
              rw [settings_run]
              rfl
            rw [if_pos rfl]
            rw [← before] at ih ⊢
            exact reflects_update _ ih reports
          · rw [if_neg own, lastReport_update_of_ne _ own, List.reverse_nil, List.nil_append]
            exact ih
      | remove id =>
          simp only [Graph.change, Change.voids, Change.reportsOf, lastReport_remove,
            decide_eq_true_eq, List.reverse_nil, List.nil_append]
          by_cases own : id = source
          · rw [if_pos own, if_pos own]
            exact settings.skip.reflects_self ∅
          · rw [if_neg own, if_neg own]
            exact ih
      | clear =>
          have nothing : ((fresh settings).run changes).clear.lastReport source label = ∅ := by
            simp [clear, fresh, lastReport]
          simp only [Graph.change, Change.voids, if_true, nothing]
          exact settings.skip.reflects_self ∅

/-- After every history, the last report of a source under a label has the objects of
the latest report of the source under the label since the source was last removed or
all was cleared: exactly these by the equality rule, and none but these by the subset
rule.  Other sources and reports of other labels leave it as it is. -/
theorem lastReport_run_reflects_latest (settings : Settings) (changes : List Change)
    (source : ObjectId) (label : Label) :
    (settings.skip = .equality →
      ((fresh settings).run changes).lastReport source label = latest changes source label) ∧
    (settings.skip = .subset →
      ∀ x ∈ ((fresh settings).run changes).lastReport source label,
        x ∈ latest changes source label) ∧
    (∀ other reports, other ≠ source →
      (((fresh settings).run changes).update other reports).graph.lastReport source label =
        ((fresh settings).run changes).lastReport source label) ∧
    (∀ other, other ≠ source →
      (((fresh settings).run changes).remove other).graph.lastReport source label =
        ((fresh settings).run changes).lastReport source label) ∧
    ∀ report, report.label ≠ label →
      (((fresh settings).run changes).receive source report).1.lastReport source label =
        ((fresh settings).run changes).lastReport source label := by
  have reflects := reflects_run settings changes source label
  refine ⟨?equality, ?subset, ?update, ?remove, ?report⟩
  case equality =>
    intro rule
    rwa [rule] at reflects
  case subset =>
    intro rule
    rwa [rule] at reflects
  case update =>
    intro other reports different
    exact lastReport_update_of_ne _ different reports label
  case remove =>
    intro other different
    rw [lastReport_remove, if_neg different]
  case report =>
    intro report different
    exact lastReport_receive_of_ne _ fun same => different same.2

/-- A pod reports twice, and its deployment is removed in between. -/
theorem ledger_of_pod :
    ((fresh {}).run Example.anew).lastReport Example.pod .offshoot =
        latest Example.anew Example.pod .offshoot ∧
    (∀ x ∈ ((fresh { skip := .subset }).run Example.anew).lastReport Example.pod .offshoot,
      x ∈ latest Example.anew Example.pod .offshoot) ∧
    Example.web ≠ Example.pod ∧
    (((fresh {}).run Example.anew).update Example.web
        [⟨.offshoot, {Example.pod}⟩]).graph.lastReport Example.pod .offshoot =
      ((fresh {}).run Example.anew).lastReport Example.pod .offshoot ∧
    (((fresh {}).run Example.anew).remove Example.web).graph.lastReport Example.pod .offshoot =
      ((fresh {}).run Example.anew).lastReport Example.pod .offshoot ∧
    Label.storage ≠ .offshoot ∧
    (((fresh {}).run Example.anew).receive Example.pod
        ⟨.storage, {Example.disk}⟩).1.lastReport Example.pod .offshoot =
      ((fresh {}).run Example.anew).lastReport Example.pod .offshoot := by
  have other : Example.web ≠ Example.pod := by decide
  have otherLabel : Label.storage ≠ .offshoot := by decide
  obtain ⟨equal, _, update, remove, report⟩ :=
    lastReport_run_reflects_latest {} Example.anew Example.pod .offshoot
  have within :=
    (lastReport_run_reflects_latest { skip := .subset } Example.anew Example.pod .offshoot).2.1
  exact ⟨equal rfl, within rfl, other, update Example.web _ other, remove Example.web other,
    otherLabel, report ⟨.storage, {Example.disk}⟩ otherLabel⟩

-- By the subset rule a report that only adds is skipped, so the last report stays behind.
example :
    let changes := [Change.update Example.web [⟨.offshoot, {Example.pod}⟩],
      .update Example.web [⟨.offshoot, {Example.pod, Example.web}⟩]]
    ((fresh { skip := .subset }).run changes).lastReport Example.web .offshoot = {Example.pod} ∧
      latest changes Example.web .offshoot = {Example.pod, Example.web} := by
  decide +kernel

end Graph

end InventoryGraph
