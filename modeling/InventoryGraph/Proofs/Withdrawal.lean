import InventoryGraph.Adjacency.Extensional
import InventoryGraph.Adjacency.Listing
import InventoryGraph.Proofs.ReportOrder

/-!
# A removal withdraws each last report

The last reports of a graph are stored without empty entries and rows
(`TidyReports`), since a report of nothing leaves no entry.  So a removal does
what the source would do by reporting nothing under each label that it has a last
report for, and what holds of updates holds of removals (`remove_eq_update`).  The
source may report nothing under these labels in any order (`remove_is_withdrawal`).
-/

namespace InventoryGraph.Graph

/-! ## Last reports are not empty -/

/-- The last reports are stored without empty entries and rows. -/
structure TidyReports (graph : Graph) : Prop where
  entries : graph.reports.NoEmptyEntry
  rows : graph.reports.NoEmptyRow

theorem tidyReports_fresh (settings : Settings) : (fresh settings).TidyReports :=
  ⟨Adjacency.noEmptyEntry_empty, Adjacency.noEmptyRow_empty⟩

theorem tidyReports_invariant : Invariant (fun _ _ => True) TidyReports where
  apply _ source report _ tidy :=
    ⟨Adjacency.noEmptyEntry_assign tidy.entries source report.label report.targets,
      Adjacency.noEmptyRow_assign tidy.rows source report.label report.targets⟩
  remove _ source tidy :=
    ⟨Adjacency.noEmptyEntry_eraseRow tidy.entries source,
      Adjacency.noEmptyRow_eraseRow tidy.rows source⟩
  clear graph _ := tidyReports_fresh graph.settings

theorem tidyReports_run (settings : Settings) (changes : List Change) :
    ((fresh settings).run changes).TidyReports :=
  tidyReports_invariant.run_always (tidyReports_fresh settings) changes

/-! ## Reporting nothing -/

variable {graph : Graph} {source : ObjectId}

/-- A report of nothing is not skipped after a last report of something. -/
theorem skips_empty (rule : SkipRule) {last : IdSet} (nonempty : last ≠ ∅) :
    rule.skips (some last) ∅ = false := by
  cases rule with
  | equality => simpa [SkipRule.skips] using nonempty
  | subset =>
      have listed : last.toList ≠ [] := fun nothing =>
        nonempty (Std.ExtTreeSet.toList_eq_nil_iff.mp nothing)
      obtain ⟨first, rest, listed⟩ := List.exists_cons_of_ne_nil listed
      simp [SkipRule.skips, listed]

/-- A report of nothing, put in the place of the last one, takes out all that it lists. -/
theorem apply_empty (graph : Graph) (source : ObjectId) (label : Label) :
    graph.apply source ⟨label, ∅⟩ =
      ({ graph with
          edges := graph.edges.unlinkAll graph.settings.prune source label
            (graph.lastReport source label)
          reports := graph.reports.assign source label ∅ },
        .applied (graph.lastReport source label).size 0 0
          (graph.lastReport source label ∩ graph.edges.neighbours source label).size) := by
  simp only [apply, lastReport, IdSet.diff_empty, IdSet.empty_diff, Adjacency.linkAll_empty]
  rfl

/-- A report of nothing parts the source from all of its last report. -/
theorem receive_empty {label : Label} {last : IdSet}
    (stored : graph.reports.find? source label = some last) (nonempty : last ≠ ∅) :
    graph.receive source ⟨label, ∅⟩ =
      ({ graph with
          edges := graph.edges.unlinkAll graph.settings.prune source label last
          reports := graph.reports.assign source label ∅ },
        .applied last.size 0 0 (last ∩ graph.edges.neighbours source label).size) := by
  have last_eq : graph.lastReport source label = last := by
    simp [lastReport, Adjacency.neighbours, stored]
  simp only [receive, stored, skips_empty _ nonempty, Bool.false_eq_true, if_false, apply_empty,
    last_eq]

/-- Reports of nothing under some labels withdraw the last reports of these
labels one by one. -/
theorem update_empty (entries : List (Label × IdSet))
    (distinct : (entries.map Prod.fst).Nodup)
    (stored : ∀ entry ∈ entries, graph.reports.find? source entry.1 = some entry.2)
    (nonempty : ∀ entry ∈ entries, entry.2 ≠ ∅) :
    graph.update source (entries.map fun entry => ⟨entry.1, ∅⟩) =
      { graph :=
          { graph with
            edges := entries.foldl
              (fun edges entry =>
                edges.unlinkAll graph.settings.prune source entry.1 entry.2) graph.edges
            reports := entries.foldl
              (fun reports entry => reports.assign source entry.1 ∅) graph.reports }
        outcomes := entries.map fun entry =>
          (entry.1, .applied entry.2.size 0 0
            (entry.2 ∩ graph.edges.neighbours source entry.1).size) } := by
  induction entries generalizing graph with
  | nil => rfl
  | cons entry rest ih =>
      obtain ⟨label, last⟩ := entry
      rw [List.map_cons, List.nodup_cons] at distinct
      rw [List.forall_mem_cons] at stored nonempty
      have other : ∀ entry ∈ rest, label ≠ entry.1 := by
        intro entry member same
        exact distinct.1 (List.mem_map.mpr ⟨entry, member, same.symm⟩)
      -- Withdrawing under one label leaves the entries of the other labels.
      have outcomes : ∀ entry ∈ rest,
          (graph.edges.unlinkAll graph.settings.prune source label last).neighbours source
            entry.1 = graph.edges.neighbours source entry.1 :=
        fun entry member =>
          Adjacency.neighbours_unlinkAll_of_ne _ _ _ (other entry member) _ _
      rw [List.map_cons, update_cons, receive_empty stored.1 nonempty.1, ih distinct.2]
      · simp only [List.foldl_cons, List.map_cons, Applied.mk.injEq, List.cons.injEq, true_and]
        apply List.map_congr_left
        intro entry member
        rw [outcomes entry member]
      · intro entry member
        rw [Adjacency.find?_assign, if_neg (fun same => other entry member same.2)]
        exact stored.2 entry member
      · exact nonempty.2

/-! ## Removals -/

/-- The reports by which a source withdraws all that it has reported. -/
def withdrawals (graph : Graph) (source : ObjectId) : List Report :=
  (graph.reports.row source).toList.map fun entry => ⟨entry.1, ∅⟩

/-- The withdrawals are told by their labels. -/
theorem map_label_withdrawals (graph : Graph) (source : ObjectId) :
    ((graph.withdrawals source).map Report.label).map (fun label => (⟨label, ∅⟩ : Report)) =
      graph.withdrawals source := by
  rw [withdrawals, List.map_map, List.map_map]
  rfl

theorem nodup_labels_row (row : Row) : (row.toList.map Prod.fst).Nodup := by
  rw [Std.ExtTreeMap.map_fst_toList_eq_keys]
  exact Std.ExtTreeMap.nodup_keys

theorem nodup_labels_withdrawals (graph : Graph) (source : ObjectId) :
    ((graph.withdrawals source).map Report.label).Nodup := by
  simpa [withdrawals, Function.comp_def] using nodup_labels_row (graph.reports.row source)

/-- Emptying some entries of an object leaves its other entries. -/
theorem find?_foldl_assign_empty (entries : List (Label × IdSet)) (reports : Adjacency)
    (source id : ObjectId) (label : Label) :
    (entries.foldl (fun reports entry => reports.assign source entry.1 ∅) reports).find? id
        label =
      if source = id ∧ label ∈ entries.map Prod.fst then none else reports.find? id label := by
  induction entries generalizing reports with
  | nil => simp
  | cons entry rest ih =>
      rw [List.foldl_cons, ih, Adjacency.find?_assign]
      grind [Std.ExtTreeSet.isEmpty_empty]

theorem noEmptyRow_foldl_assign (entries : List (Label × IdSet)) {reports : Adjacency}
    (rows : reports.NoEmptyRow) (source : ObjectId) :
    (entries.foldl (fun reports entry => reports.assign source entry.1 ∅)
      reports).NoEmptyRow := by
  induction entries generalizing reports with
  | nil => exact rows
  | cons entry rest ih =>
      exact ih (Adjacency.noEmptyRow_assign rows source entry.1 ∅)

/-- To remove a source is to report nothing for it under each label that it has a
last report for: the graph and the outcomes are the same. -/
theorem remove_eq_update (tidy : graph.TidyReports) (source : ObjectId) :
    graph.remove source = graph.update source (graph.withdrawals source) := by
  have stored : ∀ entry ∈ (graph.reports.row source).toList,
      graph.reports.find? source entry.1 = some entry.2 :=
    fun _ member => Std.ExtTreeMap.mem_toList_iff_getElem?_eq_some.mp member
  have nonempty : ∀ entry ∈ (graph.reports.row source).toList, entry.2 ≠ ∅ := by
    intro entry member vacant
    exact tidy.entries source entry.1 (vacant ▸ stored entry member)
  have reports_eq : graph.reports.eraseRow source =
      (graph.reports.row source).toList.foldl
        (fun reports entry => reports.assign source entry.1 ∅) graph.reports := by
    apply Adjacency.ext_find? (Adjacency.noEmptyRow_eraseRow tidy.rows source)
      (noEmptyRow_foldl_assign _ tidy.rows source)
    intro id label
    rw [Adjacency.find?_eraseRow, find?_foldl_assign_empty]
    by_cases own : source = id
    · subst own
      by_cases member : label ∈ (graph.reports.row source).toList.map Prod.fst
      · rw [if_pos rfl, if_pos ⟨rfl, member⟩]
      · rw [if_pos rfl, if_neg (fun both => member both.2), Adjacency.find?]
        rw [Std.ExtTreeMap.map_fst_toList_eq_keys, Std.ExtTreeMap.mem_keys] at member
        exact (Std.ExtTreeMap.getElem?_eq_none member).symm
    · rw [if_neg own, if_neg (fun both => own both.1)]
  rw [withdrawals, update_empty _ (nodup_labels_row _) stored nonempty, remove, reports_eq,
    Std.ExtTreeMap.foldl_eq_foldl_toList]

/-- The labels of the withdrawals are those that the source has a last report for. -/
theorem mem_labels_withdrawals_iff (tidy : graph.TidyReports) {label : Label} :
    label ∈ (graph.withdrawals source).map Report.label ↔
      graph.lastReport source label ≠ ∅ := by
  have labels_eq : (graph.withdrawals source).map Report.label =
      (graph.reports.row source).keys := by
    simp [withdrawals, Function.comp_def, Std.ExtTreeMap.map_fst_toList_eq_keys]
  rw [labels_eq, Std.ExtTreeMap.mem_keys, Std.ExtTreeMap.mem_iff_isSome_getElem?]
  change (graph.reports.find? source label).isSome = true ↔ _
  rw [tidy.entries.find?_eq, lastReport]
  split <;> simp [*]

/-- A removal skips no label and adds no edge. -/
theorem skipped_and_added_remove (graph : Graph) (source : ObjectId) :
    (graph.remove source).tally.skipped = 0 ∧ (graph.remove source).tally.added = 0 := by
  have nothing : ∀ entries : List (Label × IdSet),
      (Tally.ofOutcomes (entries.map fun entry => Outcome.applied entry.2.size 0 0
        (entry.2 ∩ graph.edges.neighbours source entry.1).size)).skipped = 0 ∧
      (Tally.ofOutcomes (entries.map fun entry => Outcome.applied entry.2.size 0 0
        (entry.2 ∩ graph.edges.neighbours source entry.1).size)).added = 0 := by
    intro entries
    induction entries with
    | nil => exact ⟨rfl, rfl⟩
    | cons entry rest ih => simp [ih, Tally.ofOutcome, Tally.count]
  simpa [Applied.tally, remove, Function.comp_def] using nothing _

/-- After every history, to remove a source is to report nothing for it under each label
that it has a live report for, in any order: the graph is the same, in what it stores too,
and so is the tally, in which no label counts as skipped. -/
theorem remove_is_withdrawal (settings : Settings) (changes : List Change) (source : ObjectId)
    {labels : List Label} (distinct : labels.Nodup)
    (live : ∀ label,
      label ∈ labels ↔ ((fresh settings).run changes).lastReport source label ≠ ∅) :
    (((fresh settings).run changes).update source (labels.map (⟨·, ∅⟩))).graph =
        (((fresh settings).run changes).remove source).graph ∧
      (((fresh settings).run changes).update source (labels.map (⟨·, ∅⟩))).tally =
        (((fresh settings).run changes).remove source).tally ∧
      (((fresh settings).run changes).remove source).tally.skipped = 0 := by
  have tidy := tidyReports_run settings changes
  have same : labels.Perm
      ((((fresh settings).run changes).withdrawals source).map Report.label) := by
    rw [List.perm_ext_iff_of_nodup distinct (nodup_labels_withdrawals _ source)]
    intro label
    rw [live, mem_labels_withdrawals_iff tidy]
  have perm : (labels.map fun label => (⟨label, ∅⟩ : Report)).Perm
      (((fresh settings).run changes).withdrawals source) := by
    have emptied := same.map fun label => (⟨label, ∅⟩ : Report)
    rwa [map_label_withdrawals] at emptied
  have once : ((labels.map fun label => (⟨label, ∅⟩ : Report)).map Report.label).Nodup := by
    simpa [Function.comp_def] using distinct
  have skipped := (skipped_and_added_remove ((fresh settings).run changes) source).1
  rw [remove_eq_update tidy] at skipped ⊢
  exact ⟨(update_of_perm perm once _ source).1, tally_update_of_perm perm once _ source,
    skipped⟩

/-- The deployment has reported under two labels and withdraws the later one first. -/
theorem withdrawn_out_of_order :
    [Label.storage, Label.offshoot].Nodup ∧
    (∀ label, label ∈ [Label.storage, Label.offshoot] ↔
      ((fresh {}).run Example.twoLabels).lastReport Example.web label ≠ ∅) ∧
    (((fresh {}).run Example.twoLabels).update Example.web
        ([Label.storage, Label.offshoot].map (⟨·, ∅⟩))).graph =
      (((fresh {}).run Example.twoLabels).remove Example.web).graph ∧
    (((fresh {}).run Example.twoLabels).update Example.web
        ([Label.storage, Label.offshoot].map (⟨·, ∅⟩))).tally =
      (((fresh {}).run Example.twoLabels).remove Example.web).tally ∧
    (((fresh {}).run Example.twoLabels).remove Example.web).tally.skipped = 0 := by
  have distinct : [Label.storage, Label.offshoot].Nodup := by decide
  have labels_eq : ((fresh {}).run Example.twoLabels).reports.labels Example.web =
      [Label.offshoot, Label.storage] := by
    decide +kernel
  have live : ∀ label, label ∈ [Label.storage, Label.offshoot] ↔
      ((fresh {}).run Example.twoLabels).lastReport Example.web label ≠ ∅ := by
    intro label
    rw [lastReport, ← Adjacency.mem_labels_iff, labels_eq]
    exact (List.Perm.swap _ _ _).mem_iff
  rcases remove_is_withdrawal {} Example.twoLabels Example.web distinct live with
    ⟨same, tally, skipped⟩
  exact ⟨distinct, live, same, tally, skipped⟩

end InventoryGraph.Graph
