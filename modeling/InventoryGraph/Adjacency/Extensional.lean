import InventoryGraph.Adjacency.Entry

/-!
# When adjacencies are the same

The stored form of an adjacency may hold empty rows and empty entries.  Without
empty rows it is determined by its entries (`ext_find?`), and without either by
its neighbours.  A snapshot has neither, so two snapshots are the same exactly
when their adjacencies have the same neighbours (`snapshot_eq_iff`).
-/

namespace InventoryGraph.Adjacency

/-- No row is stored without entries. -/
def NoEmptyRow (edges : Adjacency) : Prop :=
  ∀ id : ObjectId, edges.rows[id]? ≠ some ∅

/-- No entry is stored empty. -/
def NoEmptyEntry (edges : Adjacency) : Prop :=
  ∀ id label, edges.find? id label ≠ some ∅

/-! ## Equality by entries -/

theorem NoEmptyRow.getElem?_rows {edges : Adjacency} (rows : edges.NoEmptyRow)
    (id : ObjectId) : edges.rows[id]? = if edges.row id = ∅ then none else some (edges.row id) := by
  cases stored : edges.rows[id]? with
  | none => simp [row, stored]
  | some entries =>
      have nonempty : entries ≠ ∅ := by
        rintro rfl
        exact rows id stored
      simp [row, stored, nonempty]

/-- Entries determine an adjacency that stores no empty row. -/
theorem ext_find? {first second : Adjacency} (firstRows : first.NoEmptyRow)
    (secondRows : second.NoEmptyRow)
    (same : ∀ id label, first.find? id label = second.find? id label) : first = second := by
  have row_eq : ∀ id, first.row id = second.row id :=
    fun id => Std.ExtTreeMap.ext_getElem? (same id)
  apply Adjacency.ext
  apply Std.ExtTreeMap.ext_getElem?
  intro id
  rw [firstRows.getElem?_rows, secondRows.getElem?_rows, row_eq]

theorem NoEmptyEntry.find?_eq {edges : Adjacency} (entries : edges.NoEmptyEntry)
    (id : ObjectId) (label : Label) :
    edges.find? id label =
      if edges.neighbours id label = ∅ then none else some (edges.neighbours id label) := by
  cases stored : edges.find? id label with
  | none => simp [neighbours, stored]
  | some entry =>
      have nonempty : entry ≠ ∅ := by
        rintro rfl
        exact entries id label stored
      simp [neighbours, stored, nonempty]

/-! ## What keeps rows and entries nonempty -/

/-- A row that is stored only with entries is not stored empty. -/
private theorem ite_isEmpty_ne_some_empty (row : Row) :
    (if row.isEmpty then none else some row) ≠ some ∅ := by
  split
  · simp
  · rename_i occupied
    intro vacant
    rw [Option.some.inj vacant] at occupied
    simp at occupied

theorem noEmptyRow_empty : empty.NoEmptyRow := by
  intro id
  simp [empty]

theorem noEmptyEntry_empty : empty.NoEmptyEntry := by
  intro id label
  simp [empty, find?, row]

/-- A row goes with its last entry, whatever becomes of the entry. -/
theorem noEmptyRow_alter {edges : Adjacency} (rows : edges.NoEmptyRow) (id : ObjectId)
    (label : Label) (change : Option IdSet → Option IdSet) :
    (edges.alter id label change).NoEmptyRow := by
  intro other
  simp only [alter, Std.ExtTreeMap.getElem?_alter, Std.LawfulEqOrd.compare_eq_iff_eq]
  split
  · exact ite_isEmpty_ne_some_empty _
  · exact rows other

theorem noEmptyRow_assign {edges : Adjacency} (rows : edges.NoEmptyRow) (id : ObjectId)
    (label : Label) (targets : IdSet) : (edges.assign id label targets).NoEmptyRow :=
  noEmptyRow_alter rows id label _

theorem noEmptyRow_eraseRow {edges : Adjacency} (rows : edges.NoEmptyRow) (id : ObjectId) :
    (edges.eraseRow id).NoEmptyRow := by
  intro other
  simp only [eraseRow, Std.ExtTreeMap.getElem?_erase]
  split
  · simp
  · exact rows other

theorem find?_assign (edges : Adjacency) (id : ObjectId) (label : Label) (targets : IdSet)
    (otherId : ObjectId) (otherLabel : Label) :
    (edges.assign id label targets).find? otherId otherLabel =
      if id = otherId ∧ label = otherLabel then
        if targets.isEmpty then none else some targets
      else
        edges.find? otherId otherLabel :=
  find?_alter edges id label _ otherId otherLabel

theorem find?_eraseRow (edges : Adjacency) (id other : ObjectId) (label : Label) :
    (edges.eraseRow id).find? other label =
      if id = other then none else edges.find? other label := by
  simp only [find?, row_eraseRow]
  split <;> simp

theorem noEmptyEntry_assign {edges : Adjacency} (entries : edges.NoEmptyEntry) (id : ObjectId)
    (label : Label) (targets : IdSet) : (edges.assign id label targets).NoEmptyEntry := by
  intro otherId otherLabel
  rw [find?_assign]
  split
  · split
    · simp
    · rename_i occupied
      intro vacant
      rw [Option.some.inj vacant] at occupied
      simp at occupied
  · exact entries otherId otherLabel

theorem noEmptyEntry_eraseRow {edges : Adjacency} (entries : edges.NoEmptyEntry)
    (id : ObjectId) : (edges.eraseRow id).NoEmptyEntry := by
  intro other label
  rw [find?_eraseRow]
  split
  · simp
  · exact entries other label

theorem noEmptyRow_link {edges : Adjacency} (rows : edges.NoEmptyRow) (left : ObjectId)
    (label : Label) (right : ObjectId) : (edges.link left label right).NoEmptyRow :=
  noEmptyRow_alter (noEmptyRow_alter rows left label _) right label _

theorem noEmptyEntry_attach {edges : Adjacency} (entries : edges.NoEmptyEntry) (id : ObjectId)
    (label : Label) (target : ObjectId) : (edges.attach id label target).NoEmptyEntry := by
  intro otherId otherLabel
  rw [attach, find?_alter]
  split
  · simp
  · exact entries otherId otherLabel

theorem noEmptyEntry_link {edges : Adjacency} (entries : edges.NoEmptyEntry) (left : ObjectId)
    (label : Label) (right : ObjectId) : (edges.link left label right).NoEmptyEntry :=
  noEmptyEntry_attach (noEmptyEntry_attach entries left label right) right label left

/-! ## Snapshots -/

theorem noEmptyRow_snapshot (edges : Adjacency) : edges.snapshot.NoEmptyRow := by
  intro id
  simp only [snapshot, Std.ExtTreeMap.getElem?_filterMap']
  cases edges.rows[id]? with
  | none => simp
  | some row => exact ite_isEmpty_ne_some_empty _

/-- A snapshot keeps the entries that are not empty. -/
theorem find?_snapshot (edges : Adjacency) (id : ObjectId) (label : Label) :
    edges.snapshot.find? id label = (edges.find? id label).filter fun entry => !entry.isEmpty := by
  simp only [snapshot, find?, row, Std.ExtTreeMap.getElem?_filterMap']
  cases edges.rows[id]? with
  | none => simp
  | some row =>
      have kept : (row.filter fun _ entry => !entry.isEmpty)[label]? =
          row[label]?.filter fun entry => !entry.isEmpty :=
        Std.ExtTreeMap.getElem?_filter'
      simp only [Option.bind_some, Option.getD_some, ← kept]
      split
      · rename_i vacant
        rw [Std.ExtTreeMap.isEmpty_iff.mp vacant]
        rfl
      · rfl

theorem noEmptyEntry_snapshot (edges : Adjacency) : edges.snapshot.NoEmptyEntry := by
  intro id label
  rw [find?_snapshot]
  simp [Option.filter_eq_some_iff]

@[simp]
theorem neighbours_snapshot (edges : Adjacency) (id : ObjectId) (label : Label) :
    edges.snapshot.neighbours id label = edges.neighbours id label := by
  simp only [neighbours, find?_snapshot]
  cases edges.find? id label with
  | none => rfl
  | some entry =>
      by_cases vacant : entry.isEmpty = true
      · simp [Option.filter, Std.ExtTreeSet.isEmpty_iff.mp vacant]
      · simp [Option.filter, vacant]

/-- A snapshot tells the neighbours and nothing else. -/
theorem snapshot_eq_iff {first second : Adjacency} :
    first.snapshot = second.snapshot ↔
      ∀ id label, first.neighbours id label = second.neighbours id label := by
  constructor
  · intro same id label
    rw [← neighbours_snapshot first, same, neighbours_snapshot]
  · intro same
    apply ext_find? first.noEmptyRow_snapshot second.noEmptyRow_snapshot
    intro id label
    rw [first.noEmptyEntry_snapshot.find?_eq, second.noEmptyEntry_snapshot.find?_eq,
      neighbours_snapshot, neighbours_snapshot, same]

end InventoryGraph.Adjacency
