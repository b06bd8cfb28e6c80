import InventoryGraph.Adjacency

/-!
# What changes do to entries

Every change of an adjacency goes through `alter`, and `find?_alter` says what
it does to each entry.  The statements about neighbours follow from it: joining
adds a pair on both sides, parting takes it away on both sides, and nothing else
changes, whether or not empty entries are dropped.
-/

namespace InventoryGraph

namespace IdSet

theorem nodup_toList (ids : IdSet) : ids.toList.Nodup := by
  apply Std.ExtTreeSet.distinct_toList.imp
  rintro left _ different rfl
  simp at different

theorem diff_empty (ids : IdSet) : ids \ ∅ = ids := by
  apply Std.ExtTreeSet.ext_mem
  simp [Std.ExtTreeSet.mem_diff_iff]

theorem empty_diff (ids : IdSet) : ∅ \ ids = (∅ : IdSet) := by
  apply Std.ExtTreeSet.ext_mem
  simp [Std.ExtTreeSet.mem_diff_iff]

theorem empty_inter (ids : IdSet) : ∅ ∩ ids = (∅ : IdSet) := by
  apply Std.ExtTreeSet.ext_mem
  simp [Std.ExtTreeSet.mem_inter_iff]

end IdSet

namespace Adjacency

/-! ## Rows and entries -/

theorem row_alter (edges : Adjacency) (id : ObjectId) (label : Label)
    (change : Option IdSet → Option IdSet) (other : ObjectId) :
    (edges.alter id label change).row other =
      if id = other then (edges.row id).alter label change else edges.row other := by
  unfold row alter
  rw [Std.ExtTreeMap.getElem?_alter]
  by_cases same : id = other
  · subst other
    rw [if_pos (Std.LawfulEqOrd.compare_eq_iff_eq.mpr rfl), if_pos rfl]
    by_cases vacant : (((edges.rows[id]?).getD ∅).alter label change).isEmpty = true
    · simp only [vacant, if_true, Option.getD_none]
      exact (Std.ExtTreeMap.isEmpty_iff.mp vacant).symm
    · simp [vacant]
  · rw [if_neg (fun equal => same (Std.LawfulEqOrd.compare_eq_iff_eq.mp equal)), if_neg same]

theorem row_eraseRow (edges : Adjacency) (id other : ObjectId) :
    (edges.eraseRow id).row other = if id = other then ∅ else edges.row other := by
  simp only [row, eraseRow, Std.ExtTreeMap.getElem?_erase, Std.LawfulEqOrd.compare_eq_iff_eq]
  split <;> rfl

/-- Changing an entry changes that entry and no other. -/
theorem find?_alter (edges : Adjacency) (id : ObjectId) (label : Label)
    (change : Option IdSet → Option IdSet) (otherId : ObjectId) (otherLabel : Label) :
    (edges.alter id label change).find? otherId otherLabel =
      if id = otherId ∧ label = otherLabel then
        change (edges.find? id label)
      else
        edges.find? otherId otherLabel := by
  unfold find?
  rw [row_alter]
  by_cases sameId : id = otherId
  · subst otherId
    rw [if_pos rfl, Std.ExtTreeMap.getElem?_alter]
    by_cases sameLabel : label = otherLabel
    · subst otherLabel
      simp
    · simp [sameLabel]
  · simp [sameId]

/-- The neighbours of an object are what its stored entry holds. -/
theorem mem_neighbours_iff {edges : Adjacency} {id : ObjectId} {label : Label} {x : ObjectId} :
    x ∈ edges.neighbours id label ↔
      ∃ row, edges.rows[id]? = some row ∧ ∃ entry, row[label]? = some entry ∧ x ∈ entry := by
  unfold neighbours find? row
  cases edges.rows[id]? with
  | none => simp
  | some row =>
      simp only [Option.getD_some, Option.some.injEq, exists_eq_left']
      cases row[label]? <;> simp

@[simp]
theorem neighbours_empty (id : ObjectId) (label : Label) :
    empty.neighbours id label = ∅ := by
  simp [empty, neighbours, find?, row]

/-! ## One pair -/

/-- Adding to an entry adds one neighbour. -/
theorem mem_neighbours_attach (edges : Adjacency) (id : ObjectId) (label : Label)
    (target otherId : ObjectId) (otherLabel : Label) (x : ObjectId) :
    x ∈ (edges.attach id label target).neighbours otherId otherLabel ↔
      (otherId = id ∧ otherLabel = label ∧ x = target) ∨
        x ∈ edges.neighbours otherId otherLabel := by
  simp only [attach, neighbours, find?_alter]
  by_cases same : id = otherId ∧ label = otherLabel
  · obtain ⟨rfl, rfl⟩ := same
    simp only [and_self, if_true, Option.getD_some, Std.ExtTreeSet.mem_insert,
      Std.LawfulEqOrd.compare_eq_iff_eq, true_and]
    rw [eq_comm (a := x)]
  · rw [if_neg same]
    constructor
    · exact Or.inr
    · rintro (⟨rfl, rfl, _⟩ | member)
      · exact absurd ⟨rfl, rfl⟩ same
      · exact member

/-- Taking out of an entry takes one neighbour away. -/
theorem mem_neighbours_detach (prune : Bool) (edges : Adjacency) (id : ObjectId)
    (label : Label) (target otherId : ObjectId) (otherLabel : Label) (x : ObjectId) :
    x ∈ (edges.detach prune id label target).neighbours otherId otherLabel ↔
      ¬(otherId = id ∧ otherLabel = label ∧ x = target) ∧
        x ∈ edges.neighbours otherId otherLabel := by
  simp only [detach, neighbours, find?_alter]
  by_cases same : id = otherId ∧ label = otherLabel
  · obtain ⟨rfl, rfl⟩ := same
    cases entry : edges.find? id label with
    | none => simp
    | some targets =>
        by_cases vacant : (prune && (targets.erase target).isEmpty) = true
        · have erased : targets.erase target = ∅ := by
            simp only [Bool.and_eq_true] at vacant
            exact Std.ExtTreeSet.isEmpty_iff.mp vacant.2
          have gone : x ∉ targets.erase target := by simp [erased]
          rw [Std.ExtTreeSet.mem_erase, Ne, Std.LawfulEqOrd.compare_eq_iff_eq] at gone
          simp only [vacant, and_self, if_true, true_and, eq_comm, Option.getD_none,
            Option.getD_some, Std.ExtTreeSet.not_mem_empty, false_iff]
          exact gone
        · simp only [vacant, and_self, if_true, true_and, Option.getD_some,
            Std.ExtTreeSet.mem_erase, Ne, Std.LawfulEqOrd.compare_eq_iff_eq, if_false,
            Bool.false_eq_true]
          rw [eq_comm (a := x)]
  · rw [if_neg same]
    constructor
    · intro member
      exact ⟨fun equal => same ⟨equal.1.symm, equal.2.1.symm⟩, member⟩
    · exact And.right

/-- Joining two objects makes each a neighbour of the other. -/
theorem mem_neighbours_link (edges : Adjacency) (left : ObjectId) (label : Label)
    (right otherId : ObjectId) (otherLabel : Label) (x : ObjectId) :
    x ∈ (edges.link left label right).neighbours otherId otherLabel ↔
      (otherLabel = label ∧ ((otherId = left ∧ x = right) ∨ (otherId = right ∧ x = left))) ∨
        x ∈ edges.neighbours otherId otherLabel := by
  simp only [link, mem_neighbours_attach]
  grind

/-- Parting two objects makes neither a neighbour of the other. -/
theorem mem_neighbours_unlink (prune : Bool) (edges : Adjacency) (left : ObjectId)
    (label : Label) (right otherId : ObjectId) (otherLabel : Label) (x : ObjectId) :
    x ∈ (edges.unlink prune left label right).neighbours otherId otherLabel ↔
      ¬(otherLabel = label ∧ ((otherId = left ∧ x = right) ∨ (otherId = right ∧ x = left))) ∧
        x ∈ edges.neighbours otherId otherLabel := by
  simp only [unlink, mem_neighbours_detach]
  grind

/-! ## Many pairs -/

private theorem mem_neighbours_foldl_link (id : ObjectId) (label : Label)
    (targets : List ObjectId) (edges : Adjacency) (otherId : ObjectId) (otherLabel : Label)
    (x : ObjectId) :
    x ∈ (targets.foldl (fun edges target => edges.link id label target) edges).neighbours
        otherId otherLabel ↔
      (otherLabel = label ∧
          ((otherId = id ∧ x ∈ targets) ∨ (otherId ∈ targets ∧ x = id))) ∨
        x ∈ edges.neighbours otherId otherLabel := by
  induction targets generalizing edges with
  | nil => simp
  | cons target rest ih =>
      simp only [List.foldl_cons, ih, mem_neighbours_link, List.mem_cons]
      grind

private theorem mem_neighbours_foldl_unlink (prune : Bool) (id : ObjectId) (label : Label)
    (targets : List ObjectId) (edges : Adjacency) (otherId : ObjectId) (otherLabel : Label)
    (x : ObjectId) :
    x ∈ (targets.foldl (fun edges target => edges.unlink prune id label target)
        edges).neighbours otherId otherLabel ↔
      ¬(otherLabel = label ∧
          ((otherId = id ∧ x ∈ targets) ∨ (otherId ∈ targets ∧ x = id))) ∧
        x ∈ edges.neighbours otherId otherLabel := by
  induction targets generalizing edges with
  | nil => simp
  | cons target rest ih =>
      simp only [List.foldl_cons, ih, mem_neighbours_unlink, List.mem_cons]
      grind

/-- Joining an object with a set makes it and each of the set neighbours. -/
theorem mem_neighbours_linkAll (edges : Adjacency) (id : ObjectId) (label : Label)
    (targets : IdSet) (otherId : ObjectId) (otherLabel : Label) (x : ObjectId) :
    x ∈ (edges.linkAll id label targets).neighbours otherId otherLabel ↔
      (otherLabel = label ∧
          ((otherId = id ∧ x ∈ targets) ∨ (otherId ∈ targets ∧ x = id))) ∨
        x ∈ edges.neighbours otherId otherLabel := by
  rw [linkAll, Std.ExtTreeSet.foldl_eq_foldl_toList, mem_neighbours_foldl_link]
  simp only [Std.ExtTreeSet.mem_toList]

/-- Parting an object from a set leaves no edge between it and any of the set. -/
theorem mem_neighbours_unlinkAll (prune : Bool) (edges : Adjacency) (id : ObjectId)
    (label : Label) (targets : IdSet) (otherId : ObjectId) (otherLabel : Label)
    (x : ObjectId) :
    x ∈ (edges.unlinkAll prune id label targets).neighbours otherId otherLabel ↔
      ¬(otherLabel = label ∧
          ((otherId = id ∧ x ∈ targets) ∨ (otherId ∈ targets ∧ x = id))) ∧
        x ∈ edges.neighbours otherId otherLabel := by
  rw [unlinkAll, Std.ExtTreeSet.foldl_eq_foldl_toList, mem_neighbours_foldl_unlink]
  simp only [Std.ExtTreeSet.mem_toList]

@[simp]
theorem linkAll_empty (edges : Adjacency) (id : ObjectId) (label : Label) :
    edges.linkAll id label ∅ = edges := by
  rw [linkAll, Std.ExtTreeSet.foldl_eq_foldl_toList, Std.ExtTreeSet.toList_eq_nil_iff.mpr rfl]
  rfl

@[simp]
theorem unlinkAll_empty (prune : Bool) (edges : Adjacency) (id : ObjectId) (label : Label) :
    edges.unlinkAll prune id label ∅ = edges := by
  rw [unlinkAll, Std.ExtTreeSet.foldl_eq_foldl_toList, Std.ExtTreeSet.toList_eq_nil_iff.mpr rfl]
  rfl

/-- Parting under one label leaves the neighbours under another. -/
theorem neighbours_unlinkAll_of_ne (prune : Bool) (edges : Adjacency) (id : ObjectId)
    {label otherLabel : Label} (different : label ≠ otherLabel) (targets : IdSet)
    (otherId : ObjectId) :
    (edges.unlinkAll prune id label targets).neighbours otherId otherLabel =
      edges.neighbours otherId otherLabel := by
  apply Std.ExtTreeSet.ext_mem
  intro x
  rw [mem_neighbours_unlinkAll]
  constructor
  · exact And.right
  · exact fun member => ⟨fun same => different same.1.symm, member⟩

/-- A replaced entry holds the new set, and other entries stay. -/
theorem neighbours_assign (edges : Adjacency) (id : ObjectId) (label : Label)
    (targets : IdSet) (otherId : ObjectId) (otherLabel : Label) :
    (edges.assign id label targets).neighbours otherId otherLabel =
      if id = otherId ∧ label = otherLabel then targets
      else edges.neighbours otherId otherLabel := by
  simp only [assign, neighbours, find?_alter]
  by_cases same : id = otherId ∧ label = otherLabel
  · rw [if_pos same, if_pos same]
    by_cases vacant : targets.isEmpty = true
    · simp [Std.ExtTreeSet.isEmpty_iff.mp vacant]
    · simp [vacant]
  · rw [if_neg same, if_neg same]

/-- An object without its row has no neighbours, and other rows stay. -/
theorem neighbours_eraseRow (edges : Adjacency) (id other : ObjectId) (label : Label) :
    (edges.eraseRow id).neighbours other label =
      if id = other then ∅ else edges.neighbours other label := by
  simp only [neighbours, find?, row_eraseRow]
  split <;> simp

end Adjacency

end InventoryGraph
