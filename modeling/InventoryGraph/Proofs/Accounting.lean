import InventoryGraph.Proofs.Star
import InventoryGraph.Proofs.Withdrawal

/-!
# What a tally says about the edges

A report counts the edges that it adds and removes at the side of its source
only.  As edges lie at both ends, these are the edges of two stars at the source,
so the counts are those of the edges that come and go (`card_added_receive`,
`card_removed_receive`).

For a whole call the counts of its reports are summed up.  The sums balance the
number of edges before and after the call in any case.  If no label occurs twice
in the call, no edge is touched twice, and the sums count the edges that are there
after the call and not before, and those before and not after.
-/

namespace InventoryGraph

namespace Graph

variable {graph : Graph}

/-- What comes and what goes balance the sizes of two sets. -/
theorem card_add_card_sdiff (before after : Finset Edge) :
    after.card + (before \ after).card = before.card + (after \ before).card := by
  have gone := Finset.card_sdiff_add_card before after
  have come := Finset.card_sdiff_add_card after before
  rw [Finset.union_comm] at gone
  omega

/-- Nothing comes and nothing goes only if nothing changes. -/
theorem card_sdiff_eq_zero_iff (before after : Finset Edge) :
    (after \ before).card = 0 ∧ (before \ after).card = 0 ↔ after = before := by
  rw [Finset.card_eq_zero, Finset.card_eq_zero, Finset.sdiff_eq_empty_iff_subset,
    Finset.sdiff_eq_empty_iff_subset, ← Finset.Subset.antisymm_iff]

/-! ## One report -/

/-- The edges after a report are those of the star that it lists, and the old ones
without the star that it withdraws. -/
theorem edgeSet_apply (graph : Graph) (source : ObjectId) (report : Report) :
    (graph.apply source report).1.edges.edgeSet =
      star report.label source report.targets ∪
        (graph.edges.edgeSet \
          star report.label source
            (graph.lastReport source report.label \ report.targets)) := by
  ext edge
  have member := mem_neighbours_apply graph source report edge.source edge.label edge.target
  simp only [neighbours] at member
  simp only [Finset.mem_union, Finset.mem_sdiff, Adjacency.mem_edgeSet_iff, mem_star_iff, member]
  tauto

theorem card_added_apply (symmetric : graph.edges.Symmetric) (source : ObjectId)
    (report : Report) :
    ((graph.apply source report).1.edges.edgeSet \ graph.edges.edgeSet).card =
      (Tally.ofOutcome (graph.apply source report).2).added := by
  have added : (graph.apply source report).1.edges.edgeSet \ graph.edges.edgeSet =
      star report.label source report.targets \ graph.edges.edgeSet := by
    rw [edgeSet_apply]
    ext edge
    simp only [Finset.mem_union, Finset.mem_sdiff]
    tauto
  rw [added, Adjacency.star_sdiff_edgeSet symmetric, card_star]
  simp [apply, Tally.ofOutcome, Tally.count]

/-- No edge is both withdrawn and listed. -/
theorem star_diff_sdiff_star (label : Label) (source : ObjectId) (last targets : IdSet) :
    star label source (last \ targets) \ star label source targets =
      star label source (last \ targets) := by
  ext edge
  simp only [Finset.mem_sdiff, mem_star_iff_exists, Std.ExtTreeSet.mem_diff_iff,
    and_iff_left_iff_imp]
  rintro ⟨x, ⟨_, unlisted⟩, rfl⟩ ⟨y, listed, same⟩
  exact unlisted (Edge.join_inj.mp same ▸ listed)

theorem card_removed_apply (symmetric : graph.edges.Symmetric) (source : ObjectId)
    (report : Report) :
    (graph.edges.edgeSet \ (graph.apply source report).1.edges.edgeSet).card =
      (Tally.ofOutcome (graph.apply source report).2).removed := by
  have removed : graph.edges.edgeSet \ (graph.apply source report).1.edges.edgeSet =
      star report.label source (graph.lastReport source report.label \ report.targets) ∩
        graph.edges.edgeSet := by
    rw [edgeSet_apply, ← star_diff_sdiff_star]
    ext edge
    simp only [Finset.mem_union, Finset.mem_sdiff, Finset.mem_inter]
    tauto
  rw [removed, Adjacency.star_inter_edgeSet symmetric, card_star]
  simp [apply, lastReport, Tally.ofOutcome, Tally.count]

/-- A report counts the edges that it adds. -/
theorem card_added_receive (symmetric : graph.edges.Symmetric) (source : ObjectId)
    (report : Report) :
    ((graph.receive source report).1.edges.edgeSet \ graph.edges.edgeSet).card =
      (Tally.ofOutcome (graph.receive source report).2).added := by
  unfold receive
  split
  · simp [Tally.ofOutcome, Tally.count]
  · exact card_added_apply symmetric source report

/-- A report counts the edges that it removes. -/
theorem card_removed_receive (symmetric : graph.edges.Symmetric) (source : ObjectId)
    (report : Report) :
    (graph.edges.edgeSet \ (graph.receive source report).1.edges.edgeSet).card =
      (Tally.ofOutcome (graph.receive source report).2).removed := by
  unfold receive
  split
  · simp [Tally.ofOutcome, Tally.count]
  · exact card_removed_apply symmetric source report

/-- A report that counts no edges leaves them all. -/
theorem edgeSet_receive_of_isNoop (symmetric : graph.edges.Symmetric) (source : ObjectId)
    (report : Report)
    (noop : (Tally.ofOutcome (graph.receive source report).2).isNoop) :
    (graph.receive source report).1.edges.edgeSet = graph.edges.edgeSet := by
  rw [Tally.isNoop_iff, ← card_added_receive symmetric, ← card_removed_receive symmetric]
    at noop
  exact (card_sdiff_eq_zero_iff _ _).mp noop

/-! ## One call -/

theorem tally_update_cons (graph : Graph) (source : ObjectId) (report : Report)
    (rest : List Report) :
    (graph.update source (report :: rest)).tally =
      Tally.ofOutcome (graph.receive source report).2 +
        ((graph.receive source report).1.update source rest).tally :=
  Tally.ofOutcomes_cons _ _

/-- The tally of a call balances the number of edges, and a call that counts no
edges leaves the snapshot. -/
structure Balanced (before : Graph) (call : Applied) : Prop where
  edgeCount :
    call.graph.edges.edgeCount + call.tally.removed = before.edges.edgeCount + call.tally.added
  noop : call.tally.isNoop → call.graph.snapshot = before.snapshot

/-- The tally of a call counts the edges that come and those that go, and it
counts none exactly when the snapshot stays. -/
structure Exact (before : Graph) (call : Applied) : Prop where
  added : call.tally.added = (call.graph.edges.edgeSet \ before.edges.edgeSet).card
  removed : call.tally.removed = (before.edges.edgeSet \ call.graph.edges.edgeSet).card
  noop_iff : call.tally.isNoop ↔ call.graph.snapshot = before.snapshot

theorem balanced_update (symmetric : graph.edges.Symmetric) (source : ObjectId)
    (reports : List Report) : Balanced graph (graph.update source reports) := by
  induction reports generalizing graph with
  | nil => exact ⟨rfl, fun _ => rfl⟩
  | cons report rest ih =>
      have middle : (graph.receive source report).1.edges.Symmetric :=
        symmetric_invariant.receive symmetric trivial
      constructor
      · have first := card_add_card_sdiff graph.edges.edgeSet
          (graph.receive source report).1.edges.edgeSet
        rw [card_added_receive symmetric, card_removed_receive symmetric,
          ← Adjacency.edgeCount_eq_card, ← Adjacency.edgeCount_eq_card] at first
        have later := (ih middle).edgeCount
        rw [tally_update_cons, Tally.added_add, Tally.removed_add, update_cons]
        dsimp only
        omega
      · intro noop
        rw [tally_update_cons, Tally.isNoop_iff, Tally.added_add, Tally.removed_add] at noop
        have first : (Tally.ofOutcome (graph.receive source report).2).isNoop :=
          Tally.isNoop_iff.mpr ⟨by omega, by omega⟩
        have later : ((graph.receive source report).1.update source rest).tally.isNoop :=
          Tally.isNoop_iff.mpr ⟨by omega, by omega⟩
        exact ((ih middle).noop later).trans <|
          (Adjacency.edgeSet_eq_iff middle symmetric).mp
            (edgeSet_receive_of_isNoop symmetric source report first)

/-- If nothing changes twice, what comes in two steps is what comes in the first
and what comes in the second. -/
theorem card_sdiff_of_stepwise {first middle last : Finset Edge}
    (once : ∀ edge, (edge ∈ first ↔ edge ∈ middle) ∨ (edge ∈ middle ↔ edge ∈ last)) :
    (last \ first).card = (middle \ first).card + (last \ middle).card := by
  have split : last \ first = (middle \ first) ∪ (last \ middle) := by
    ext edge
    simp only [Finset.mem_union, Finset.mem_sdiff]
    rcases once edge with same | same <;> tauto
  have disjoint : Disjoint (middle \ first) (last \ middle) := by
    apply Finset.disjoint_left.mpr
    intro edge came comes
    exact (Finset.mem_sdiff.mp comes).2 (Finset.mem_sdiff.mp came).1
  rw [split, Finset.card_union_of_disjoint disjoint]

/-- If no label occurs twice, each edge is touched by one report at most, and the
counts of the reports add up to those of the call. -/
theorem card_update (symmetric : graph.edges.Symmetric) (source : ObjectId)
    {reports : List Report} (distinct : (reports.map Report.label).Nodup) :
    (graph.update source reports).tally.added =
        ((graph.update source reports).graph.edges.edgeSet \ graph.edges.edgeSet).card ∧
      (graph.update source reports).tally.removed =
        (graph.edges.edgeSet \ (graph.update source reports).graph.edges.edgeSet).card := by
  induction reports generalizing graph with
  | nil => simp [Applied.tally, Tally.ofOutcomes]
  | cons report rest ih =>
      rw [List.map_cons, List.nodup_cons] at distinct
      have middle : (graph.receive source report).1.edges.Symmetric :=
        symmetric_invariant.receive symmetric trivial
      obtain ⟨added, removed⟩ := ih middle distinct.2
      have once : ∀ edge, (edge ∈ graph.edges.edgeSet ↔
            edge ∈ (graph.receive source report).1.edges.edgeSet) ∨
          (edge ∈ (graph.receive source report).1.edges.edgeSet ↔
            edge ∈ ((graph.receive source report).1.update source rest).graph.edges.edgeSet) := by
        intro edge
        simp only [Adjacency.mem_edgeSet_iff]
        by_cases own : report.label = edge.label
        · have later := neighbours_update_of_not_mem (graph.receive source report).1 source
            (own ▸ distinct.1) edge.source
          simp only [neighbours] at later
          exact Or.inr (by rw [later])
        · have first := neighbours_receive_of_ne graph source own edge.source
          simp only [neighbours] at first
          exact Or.inl (by rw [first])
      have turned := fun edge => (once edge).symm.imp Iff.symm Iff.symm
      rw [tally_update_cons, Tally.added_add, Tally.removed_add, added, removed,
        ← card_added_receive symmetric, ← card_removed_receive symmetric, update_cons]
      constructor
      · exact (card_sdiff_of_stepwise once).symm
      · rw [card_sdiff_of_stepwise turned, Nat.add_comm]

theorem exact_update (symmetric : graph.edges.Symmetric) (source : ObjectId)
    {reports : List Report} (distinct : (reports.map Report.label).Nodup) :
    Exact graph (graph.update source reports) := by
  have after : (graph.update source reports).graph.edges.Symmetric :=
    symmetric_invariant.update symmetric fun _ _ => trivial
  obtain ⟨added, removed⟩ := card_update symmetric source distinct
  refine ⟨added, removed, ?_⟩
  rw [Tally.isNoop_iff, added, removed, card_sdiff_eq_zero_iff]
  exact Adjacency.edgeSet_eq_iff after symmetric

/-- After every history, the tally of an update or a removal balances the number
of edges, and if it counts none, the snapshot stays.  The tally of an update that
mentions no label twice, and of every removal, counts exactly the edges that come
and those that go, so it counts none exactly when the snapshot stays. -/
theorem tally_accounts_for_edges (settings : Settings) (changes : List Change)
    (source : ObjectId) :
    (∀ reports, Balanced ((fresh settings).run changes)
      (((fresh settings).run changes).update source reports)) ∧
    Balanced ((fresh settings).run changes) (((fresh settings).run changes).remove source) ∧
    (∀ reports, (reports.map Report.label).Nodup →
      Exact ((fresh settings).run changes)
        (((fresh settings).run changes).update source reports)) ∧
    Exact ((fresh settings).run changes) (((fresh settings).run changes).remove source) := by
  have symmetric := symmetric_run (symmetric_fresh settings) changes
  have withdrawn := remove_eq_update (tidyReports_run settings changes) source
  refine ⟨fun reports => balanced_update symmetric source reports, ?_,
    fun reports distinct => exact_update symmetric source distinct, ?_⟩
  · rw [withdrawn]
    exact balanced_update symmetric source _
  · rw [withdrawn]
    exact exact_update symmetric source (nodup_labels_withdrawals _ source)

/-- A deployment whose pod has already reported their edge reports it too, and a
volume along with it. -/
theorem exact_known_and_new :
    ([⟨.offshoot, {Example.pod}⟩, ⟨.storage, {Example.disk}⟩].map Report.label).Nodup ∧
    Exact ((fresh {}).run Example.anew)
      (((fresh {}).run Example.anew).update Example.web
        [⟨.offshoot, {Example.pod}⟩, ⟨.storage, {Example.disk}⟩]) :=
  ⟨by decide, (tally_accounts_for_edges {} Example.anew Example.web).2.2.1 _ (by decide)⟩

-- With a label mentioned twice, an edge that comes and goes is counted both ways.
example :
    ((fresh {}).update Example.web
      [⟨.offshoot, {Example.pod}⟩, ⟨.offshoot, ∅⟩]).tally = ⟨2, 0, 1, 1⟩ := by
  decide +kernel

end Graph

end InventoryGraph
