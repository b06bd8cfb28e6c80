import InventoryGraph.Proofs.Backing
import InventoryGraph.Proofs.Symmetry
import InventoryGraph.Proofs.Withdrawal

/-!
# Sources that report side by side

The calls of several sources reach a graph in some order that none of them
chooses.  A report is compared with the last report of its own source only, so
the last reports of a source do not depend on the calls of others.  Its tally
depends on edges too, and edges are shared; but where no two objects list each
other under a label, an edge is there exactly while the last report of its source
has it (`Mirrored`).  Then every call has the outcome it would have if its source
had the graph to itself (`SameView.run`), and no interleaving of the calls
of the sources differs from another in what is left or in what is told
(`run_eq_of_interleaved`).
-/

namespace InventoryGraph

/-- The changes that a source makes, in their order. -/
def ofSource (source : ObjectId) (changes : List Change) : List Change :=
  changes.filter fun change => change.source? = some source

/-- Two histories of updates and removals in which each source makes the same
changes in the same order. -/
structure Interleaved (first second : List Change) : Prop where
  first_ne_clear : ∀ change ∈ first, change ≠ .clear
  second_ne_clear : ∀ change ∈ second, change ≠ .clear
  ofSource_eq : ∀ source, ofSource source first = ofSource source second

/-- No two objects list each other under a label. -/
def OneSided (lists : ObjectId → Label → ObjectId → Prop) : Prop :=
  ∀ left right label, left ≠ right → lists left label right → ¬lists right label left

theorem ofSource_cons_of_eq {source : ObjectId} {change : Change}
    (own : change.source? = some source) (rest : List Change) :
    ofSource source (change :: rest) = change :: ofSource source rest :=
  List.filter_cons_of_pos (by simpa using own)

theorem ofSource_cons_of_ne {source : ObjectId} {change : Change}
    (foreign : change.source? ≠ some source) (rest : List Change) :
    ofSource source (change :: rest) = ofSource source rest :=
  List.filter_cons_of_neg (by simpa using foreign)

theorem lists_ofSource_iff {changes : List Change} {source : ObjectId} {label : Label}
    {target : ObjectId} :
    Lists (ofSource source changes) source label target ↔ Lists changes source label target := by
  simp [Lists, ofSource, Change.source?]

theorem Interleaved.lists_iff {first second : List Change} (same : Interleaved first second)
    {source : ObjectId} {label : Label} {target : ObjectId} :
    Lists first source label target ↔ Lists second source label target := by
  rw [← lists_ofSource_iff, same.ofSource_eq, lists_ofSource_iff]

namespace Graph

variable {lists : ObjectId → Label → ObjectId → Prop} {graph one other : Graph}
  {source : ObjectId}

/-! ## Outcomes without a view of the edges -/

/-- Where nobody lists back, what a source lists is joined with it exactly while
its last report has it. -/
theorem Mirrored.mem_iff_of_lists (mirrored : Mirrored lists graph) (oneSided : OneSided lists)
    {id x : ObjectId} {label : Label} (listed : lists id label x) :
    x ∈ graph.neighbours id label ↔ x ∈ graph.lastReport id label := by
  apply mirrored.mem_iff
  by_cases same : id = x
  · exact Or.inl same
  · exact Or.inr (oneSided id x label same listed)

/-- Where nobody lists back, a report adds what the last one did not have and
removes what it withdraws. -/
theorem outcome_apply_of_mirrored (mirrored : Mirrored lists graph) (oneSided : OneSided lists)
    {report : Report} (listing : Listing lists source report) :
    (graph.apply source report).2 =
      .applied (graph.lastReport source report.label \ report.targets).size report.targets.size
        (report.targets \ graph.lastReport source report.label).size
        (graph.lastReport source report.label \ report.targets).size := by
  have added : report.targets \ graph.neighbours source report.label =
      report.targets \ graph.lastReport source report.label := by
    apply Std.ExtTreeSet.ext_mem
    intro x
    simp only [Std.ExtTreeSet.mem_diff_iff]
    apply and_congr_right
    intro target
    rw [mirrored.mem_iff_of_lists oneSided (listing x target)]
  have removed : (graph.lastReport source report.label \ report.targets) ∩
      graph.neighbours source report.label =
        graph.lastReport source report.label \ report.targets := by
    apply Std.ExtTreeSet.ext_mem
    intro x
    simp only [Std.ExtTreeSet.mem_inter_iff, Std.ExtTreeSet.mem_diff_iff,
      and_iff_left_iff_imp]
    rintro ⟨last, _⟩
    exact (mirrored.mem_iff_of_lists oneSided (mirrored.listed source _ x last)).mpr last
  unfold neighbours at added removed
  unfold lastReport at added removed ⊢
  simp only [apply, added, removed]

/-! ## What a source sees of a graph -/

/-- Two graphs are the same for a source: they have the same settings and the same
last reports of the source. -/
structure SameView (source : ObjectId) (one other : Graph) : Prop where
  settings : one.settings = other.settings
  row : one.reports.row source = other.reports.row source

theorem SameView.find?_eq (view : SameView source one other) (label : Label) :
    one.reports.find? source label = other.reports.find? source label := by
  rw [Adjacency.find?, view.row]
  rfl

theorem SameView.lastReport_eq (view : SameView source one other) (label : Label) :
    one.lastReport source label = other.lastReport source label := by
  rw [lastReport, Adjacency.neighbours, view.find?_eq]
  rfl

theorem SameView.withdrawals_eq (view : SameView source one other) :
    one.withdrawals source = other.withdrawals source := by
  rw [withdrawals, view.row]
  rfl

theorem row_apply (graph : Graph) (source : ObjectId) (report : Report) (id : ObjectId) :
    (graph.apply source report).1.reports.row id =
      if source = id then
        (graph.reports.row source).alter report.label fun _ =>
          if report.targets.isEmpty then none else some report.targets
      else
        graph.reports.row id :=
  Adjacency.row_alter graph.reports source report.label _ id

/-- A report of a source changes no view but its own. -/
theorem row_receive_of_ne (graph : Graph) {id : ObjectId} (different : source ≠ id)
    (report : Report) :
    (graph.receive source report).1.reports.row id = graph.reports.row id := by
  unfold receive
  split
  · rfl
  · rw [row_apply, if_neg different]

theorem row_update_of_ne (graph : Graph) {id : ObjectId} (different : source ≠ id)
    (reports : List Report) :
    (graph.update source reports).graph.reports.row id = graph.reports.row id := by
  induction reports generalizing graph with
  | nil => rfl
  | cons report rest ih => exact (ih _).trans (row_receive_of_ne graph different report)

/-- Reports of a source keep its view, and where nobody lists back they have the
same outcome. -/
theorem SameView.receive (view : SameView source one other) (oneMirrored : Mirrored lists one)
    (otherMirrored : Mirrored lists other) (oneSided : OneSided lists) {report : Report}
    (listing : Listing lists source report) :
    SameView source (one.receive source report).1 (other.receive source report).1 ∧
      (one.receive source report).2 = (other.receive source report).2 := by
  unfold Graph.receive
  rw [view.settings, view.find?_eq]
  split
  · exact ⟨view, rfl⟩
  · refine ⟨⟨view.settings, ?_⟩, ?_⟩
    · rw [row_apply, row_apply, view.row]
    · rw [outcome_apply_of_mirrored oneMirrored oneSided listing,
        outcome_apply_of_mirrored otherMirrored oneSided listing, view.lastReport_eq]

theorem SameView.update (view : SameView source one other) (oneMirrored : Mirrored lists one)
    (otherMirrored : Mirrored lists other) (oneSided : OneSided lists) {reports : List Report}
    (listing : ∀ report ∈ reports, Listing lists source report) :
    SameView source (one.update source reports).graph (other.update source reports).graph ∧
      (one.update source reports).outcomes = (other.update source reports).outcomes := by
  induction reports generalizing one other with
  | nil => exact ⟨view, rfl⟩
  | cons report rest ih =>
      rw [List.forall_mem_cons] at listing
      obtain ⟨middle, outcome⟩ := view.receive oneMirrored otherMirrored oneSided listing.1
      obtain ⟨after, outcomes⟩ := ih middle (mirrored_invariant.receive oneMirrored listing.1)
        (mirrored_invariant.receive otherMirrored listing.1) listing.2
      refine ⟨after, ?_⟩
      rw [update_cons, update_cons, outcome, outcomes]

/-! ## Changes and histories -/

/-- What holds of a graph while its sources list within `lists`. -/
structure Recorded (lists : ObjectId → Label → ObjectId → Prop) (graph : Graph) : Prop where
  mirrored : Mirrored lists graph
  tidy : graph.TidyReports

theorem recorded_fresh (settings : Settings) : Recorded lists (fresh settings) :=
  ⟨mirrored_fresh settings, tidyReports_fresh settings⟩

theorem recorded_invariant : Invariant (Listing lists) (Recorded lists) where
  apply graph source report listing recorded :=
    ⟨mirrored_invariant.apply graph source report listing recorded.mirrored,
      tidyReports_invariant.apply graph source report trivial recorded.tidy⟩
  remove graph source recorded :=
    ⟨mirrored_invariant.remove graph source recorded.mirrored,
      tidyReports_invariant.remove graph source recorded.tidy⟩
  clear graph _ := recorded_fresh graph.settings

theorem Applied.tally_eq_of_outcomes_eq {first second : Applied}
    (same : first.outcomes = second.outcomes) : first.tally = second.tally := by
  rw [Applied.tally, same]
  rfl

/-- Changes of a source keep its view, and where nobody lists back they give the
same tally. -/
theorem SameView.change (view : SameView source one other) (oneRecorded : Recorded lists one)
    (otherRecorded : Recorded lists other) (oneSided : OneSided lists) {change : Change}
    (own : change.source? = some source) (listing : change.Within (Listing lists)) :
    SameView source (one.change change).graph (other.change change).graph ∧
      (one.change change).tally = (other.change change).tally := by
  cases change with
  | update id reports =>
      obtain rfl : id = source := Option.some.inj own
      obtain ⟨after, outcomes⟩ :=
        view.update oneRecorded.mirrored otherRecorded.mirrored oneSided listing
      exact ⟨after, Applied.tally_eq_of_outcomes_eq outcomes⟩
  | remove id =>
      obtain rfl : id = source := Option.some.inj own
      have nothing : ∀ report ∈ other.withdrawals id, Listing lists id report := by
        intro report member x target
        obtain ⟨entry, _, rfl⟩ := List.mem_map.mp member
        simp at target
      obtain ⟨after, outcomes⟩ :=
        view.update oneRecorded.mirrored otherRecorded.mirrored oneSided nothing
      simp only [Graph.change, remove_eq_update oneRecorded.tidy, view.withdrawals_eq,
        remove_eq_update otherRecorded.tidy]
      exact ⟨after, Applied.tally_eq_of_outcomes_eq outcomes⟩
  | clear => cases own

/-- Changes of other sources keep the view of a source. -/
theorem SameView.change_of_ne (view : SameView source one other) {change : Change}
    (foreign : change.source? ≠ some source) (sourced : change ≠ .clear) :
    SameView source (one.change change).graph other := by
  refine ⟨(settings_change one change).trans view.settings, Eq.trans ?_ view.row⟩
  cases change with
  | update id reports =>
      exact row_update_of_ne one (fun same => foreign (congrArg some same)) reports
  | remove id =>
      exact (Adjacency.row_eraseRow _ _ _).trans
        (if_neg fun same => foreign (congrArg some same))
  | clear => contradiction

/-- The changes that a source makes in a history, each with the tally it gives. -/
def talliesOf (graph : Graph) (source : ObjectId) (changes : List Change) :
    List (Change × Tally) :=
  (graph.tallies changes).filter fun entry => entry.1.source? = some source

theorem talliesOf_cons_of_eq (graph : Graph) {change : Change}
    (own : change.source? = some source) (rest : List Change) :
    graph.talliesOf source (change :: rest) =
      (change, (graph.change change).tally) :: (graph.change change).graph.talliesOf source rest :=
  List.filter_cons_of_pos (by simpa using own)

theorem talliesOf_cons_of_ne (graph : Graph) {change : Change}
    (foreign : change.source? ≠ some source) (rest : List Change) :
    graph.talliesOf source (change :: rest) =
      (graph.change change).graph.talliesOf source rest :=
  List.filter_cons_of_neg (by simpa using foreign)

/-- In a history, where nobody lists back, the changes of a source give the
tallies, and leave the view, that they would give and leave without the changes of
others. -/
theorem SameView.run (view : SameView source one other) (oneRecorded : Recorded lists one)
    (otherRecorded : Recorded lists other) (oneSided : OneSided lists) {changes : List Change}
    (listing : ∀ change ∈ changes, change.Within (Listing lists))
    (sourced : ∀ change ∈ changes, change ≠ .clear) :
    SameView source (one.run changes) (other.run (ofSource source changes)) ∧
      one.talliesOf source changes = other.tallies (ofSource source changes) := by
  induction changes generalizing one other with
  | nil => exact ⟨view, rfl⟩
  | cons change rest ih =>
      rw [List.forall_mem_cons] at listing sourced
      have oneNext := recorded_invariant.change oneRecorded listing.1
      by_cases own : change.source? = some source
      · obtain ⟨next, tally⟩ := view.change oneRecorded otherRecorded oneSided own listing.1
        have otherNext := recorded_invariant.change otherRecorded listing.1
        obtain ⟨after, tallies⟩ := ih next oneNext otherNext listing.2 sourced.2
        rw [ofSource_cons_of_eq own, talliesOf_cons_of_eq one own]
        refine ⟨after, ?_⟩
        rw [tallies, tally]
        rfl
      · have next := view.change_of_ne own sourced.1
        rw [ofSource_cons_of_ne own, talliesOf_cons_of_ne one own]
        exact ih next oneNext otherRecorded listing.2 sourced.2

/-- A source among others that do not list back has the tallies that it would have
alone, and the same last reports in the end. -/
theorem run_ofSource (settings : Settings) {changes : List Change}
    (oneSided : OneSided (Lists changes)) (sourced : ∀ change ∈ changes, change ≠ .clear)
    (source : ObjectId) :
    SameView source ((fresh settings).run changes)
        ((fresh settings).run (ofSource source changes)) ∧
      (fresh settings).talliesOf source changes =
        (fresh settings).tallies (ofSource source changes) :=
  SameView.run ⟨rfl, rfl⟩ (recorded_fresh settings) (recorded_fresh settings) oneSided
    (within_listing fun _ _ _ listed => listed) sourced

/-! ## Interleavings -/

/-- Where nobody lists back, an edge is there exactly while one of its ends has
the other in its last report. -/
theorem mem_neighbours_run_iff_of_oneSided (settings : Settings) {changes : List Change}
    (oneSided : OneSided (Lists changes)) (id x : ObjectId) (label : Label) :
    x ∈ ((fresh settings).run changes).neighbours id label ↔
      x ∈ ((fresh settings).run changes).lastReport id label ∨
        id ∈ ((fresh settings).run changes).lastReport x label := by
  have mirrored : Mirrored (Lists changes) ((fresh settings).run changes) :=
    mirrored_run settings fun _ _ _ listed => listed
  constructor
  · exact backed_run settings changes id label x
  · rintro (last | last)
    · exact (mirrored.mem_iff_of_lists oneSided (mirrored.listed id label x last)).mpr last
    · have member := (mirrored.mem_iff_of_lists oneSided (mirrored.listed x label id last)).mpr last
      exact symmetric_run (symmetric_fresh settings) changes x id label member

/-- Two histories that interleave the same updates and removals of each source, in
which no two distinct objects list each other under a label, leave the same
snapshot and the same last reports, and each change gives the same tally in both,
told source by source as the order among sources differs. -/
theorem run_eq_of_interleaved (settings : Settings) {first second : List Change}
    (same : Interleaved first second) (oneSided : OneSided (Lists first)) :
    ((fresh settings).run first).snapshot = ((fresh settings).run second).snapshot ∧
    (∀ source label, ((fresh settings).run first).lastReport source label =
      ((fresh settings).run second).lastReport source label) ∧
    ∀ source,
      (fresh settings).talliesOf source first = (fresh settings).talliesOf source second := by
  have secondOneSided : OneSided (Lists second) := by
    intro left right label different listed
    rw [← same.lists_iff] at listed ⊢
    exact oneSided left right label different listed
  have lastReport_eq : ∀ source label, ((fresh settings).run first).lastReport source label =
      ((fresh settings).run second).lastReport source label := by
    intro source label
    have one := (run_ofSource settings oneSided same.first_ne_clear source).1
    have other := (run_ofSource settings secondOneSided same.second_ne_clear source).1
    rw [one.lastReport_eq, other.lastReport_eq, same.ofSource_eq]
  refine ⟨?_, lastReport_eq, ?_⟩
  · apply Adjacency.snapshot_eq_iff.mpr
    intro id label
    apply Std.ExtTreeSet.ext_mem
    intro x
    have one := mem_neighbours_run_iff_of_oneSided settings oneSided id x label
    have other := mem_neighbours_run_iff_of_oneSided settings secondOneSided id x label
    rw [← lastReport_eq, ← lastReport_eq] at other
    exact one.trans other.symm
  · intro source
    rw [(run_ofSource settings oneSided same.first_ne_clear source).2,
      (run_ofSource settings secondOneSided same.second_ne_clear source).2, same.ofSource_eq]

theorem interleaved_inTurns_oneByOne : Interleaved Example.inTurns Example.oneByOne := by
  refine ⟨by simp [Example.inTurns], by simp [Example.oneByOne], ?_⟩
  intro source
  simp only [ofSource, Example.inTurns, Example.oneByOne, Change.source?, List.filter]
  by_cases web : Example.web = source
  · subst web
    simp [Example.web, Example.pod, Example.disk]
  · by_cases pod : Example.pod = source
    · subst pod
      simp [Example.web, Example.pod, Example.disk]
    · by_cases disk : Example.disk = source
      · subst disk
        simp [Example.web, Example.pod, Example.disk]
      · simp [web, pod, disk]

theorem eq_of_lists_inTurns {source target : ObjectId} {label : Label}
    (listed : Lists Example.inTurns source label target) :
    (label = .offshoot ∧ source = Example.web ∧ (target = Example.pod ∨ target = Example.web)) ∨
      (label = .storage ∧ source = Example.disk ∧
        (target = Example.pod ∨ target = Example.disk)) ∨
      (label = .storage ∧ source = Example.pod ∧ target = Example.web) := by
  obtain ⟨reports, change, report, member, rfl, target⟩ := listed
  simp only [Example.inTurns, List.mem_cons, Change.update.injEq, List.not_mem_nil, or_false,
    reduceCtorEq] at change
  rcases change with ⟨rfl, rfl⟩ | ⟨rfl, rfl⟩ | ⟨rfl, rfl⟩ | ⟨rfl, rfl⟩ <;>
    simp only [List.mem_cons, List.not_mem_nil, or_false] at member <;>
    rcases member with rfl | rfl <;>
    simp [eq_comm] at target ⊢ <;>
    grind

theorem oneSided_inTurns : OneSided (Lists Example.inTurns) := by
  intro left right label different listed back
  have labels : Label.offshoot ≠ Label.storage := by decide
  have webPod : Example.web ≠ Example.pod := by decide
  have webDisk : Example.web ≠ Example.disk := by decide
  have podDisk : Example.pod ≠ Example.disk := by decide
  have there := eq_of_lists_inTurns listed
  have here := eq_of_lists_inTurns back
  grind

/-- The deployment, its pod and the volume need not take turns. -/
theorem inTurns_as_oneByOne :
    Interleaved Example.inTurns Example.oneByOne ∧ OneSided (Lists Example.inTurns) ∧
    ((fresh {}).run Example.inTurns).snapshot = ((fresh {}).run Example.oneByOne).snapshot ∧
    (∀ source label, ((fresh {}).run Example.inTurns).lastReport source label =
      ((fresh {}).run Example.oneByOne).lastReport source label) ∧
    ∀ source,
      (fresh {}).talliesOf source Example.inTurns =
        (fresh {}).talliesOf source Example.oneByOne :=
  ⟨interleaved_inTurns_oneByOne, oneSided_inTurns,
    run_eq_of_interleaved {} interleaved_inTurns_oneByOne oneSided_inTurns⟩

end Graph

end InventoryGraph
