import InventoryGraph.Adjacency.Listing
import InventoryGraph.Adjacency.Parting

/-!
# Changes made in place

`alter` builds a changed entry and its row at once.  They can also be changed where
they are stored: to put an object in, a row and an entry are opened empty if there are
none, and filled; when an object is taken out, the entry left empty is dropped where
pruned, and then a row left empty.  Each step tells whether it has changed the entry of
the first object.

What is opened is filled in the same step, and what is emptied is dropped in it, so that
the steps in place make the changes that `alter` makes (`attach_eq`, `detach_eq`,
`forget_eq`, `record_eq`).  Where there is no entry to take an object out of, an empty row
would stay in place, which `alter` drops; `detach_eq` asks that none is stored.

Steps with several objects do not bear on what each of them tells, so they can be counted
by the neighbours before the first of them (`linkEach_eq`, `unlinkEach_eq`).
-/

namespace InventoryGraph

section Map

variable {α β : Type} [Ord α] [Std.TransOrd α] [Std.LawfulEqOrd α] {map : Std.ExtTreeMap α β}
  {key : α}

theorem alter_eq_insert {change : Option β → Option β} {value : β}
    (changed : change map[key]? = some value) : map.alter key change = map.insert key value := by
  apply Std.ExtTreeMap.ext_getElem?
  intro other
  rw [Std.ExtTreeMap.getElem?_alter, Std.ExtTreeMap.getElem?_insert, changed]

theorem alter_eq_erase {change : Option β → Option β} (changed : change map[key]? = none) :
    map.alter key change = map.erase key := by
  apply Std.ExtTreeMap.ext_getElem?
  intro other
  rw [Std.ExtTreeMap.getElem?_alter, Std.ExtTreeMap.getElem?_erase, changed]

/-- There is nothing to erase at a key without a value. -/
theorem erase_of_getElem?_eq_none (absent : map[key]? = none) : map.erase key = map := by
  apply Std.ExtTreeMap.ext_getElem?
  intro other
  rw [Std.ExtTreeMap.getElem?_erase]
  split
  · rename_i same
    rw [← Std.LawfulEqOrd.compare_eq_iff_eq.mp same, absent]
  · rfl

/-- What is opened at a key and filled there is inserted. -/
theorem modify_insertIfNew (map : Std.ExtTreeMap α β) (key : α) (opened : β) (fill : β → β) :
    (map.insertIfNew key opened).modify key fill =
      map.insert key (fill (map[key]?.getD opened)) := by
  apply Std.ExtTreeMap.ext_getElem?
  intro other
  simp only [Std.ExtTreeMap.getElem?_modify, Std.ExtTreeMap.getElem?_insertIfNew,
    Std.ExtTreeMap.getElem?_insert]
  by_cases same : key = other
  · subst other
    cases stored : map[key]? with
    | none => simp [Std.ExtTreeMap.mem_iff_isSome_getElem?, stored]
    | some value => simp [Std.ExtTreeMap.mem_iff_isSome_getElem?, stored]
  · simp [same]

end Map

namespace IdSet

/-- Objects chosen from a set are as many as there are to choose. -/
theorem size_eq_countP {chosen targets : IdSet} {choice : ObjectId → Bool}
    (mem_iff : ∀ x, x ∈ chosen ↔ x ∈ targets ∧ choice x = true) :
    chosen.size = targets.toList.countP choice := by
  have listed : chosen.toList = targets.toList.filter choice := by
    apply eq_of_pairwise_lt Std.ExtTreeSet.ordered_toList
      (Std.ExtTreeSet.ordered_toList.filter _)
    simpa using mem_iff
  rw [List.countP_eq_length_filter, ← listed, Std.ExtTreeSet.length_toList]

theorem size_diff (targets others : IdSet) :
    (targets \ others).size = targets.toList.countP (· ∉ others) :=
  size_eq_countP (by simp [Std.ExtTreeSet.mem_diff_iff])

theorem size_inter (targets others : IdSet) :
    (targets ∩ others).size = targets.toList.countP (· ∈ others) :=
  size_eq_countP (by simp [Std.ExtTreeSet.mem_inter_iff])

end IdSet

namespace Adjacency

namespace InPlace

/-! ## The steps -/

/-- Puts an object into an entry, opened with its row if need be. -/
def attach (edges : Adjacency) (id : ObjectId) (label : Label) (target : ObjectId) :
    Adjacency × Bool :=
  (⟨(edges.rows.insertIfNew id ∅).modify id fun row =>
      (row.insertIfNew label ∅).modify label (·.insert target)⟩,
    target ∉ edges.neighbours id label)

/-- Drops an entry of a stored row, and the row if it is left empty. -/
def dropEntry (edges : Adjacency) (id : ObjectId) (row : Row) (label : Label) : Adjacency :=
  let others := row.erase label
  if others.isEmpty then ⟨edges.rows.erase id⟩ else ⟨edges.rows.insert id others⟩

/-- Takes an object out of an entry.  With `prune`, an entry left empty goes. -/
def detach (prune : Bool) (edges : Adjacency) (id : ObjectId) (label : Label)
    (target : ObjectId) : Adjacency × Bool :=
  match edges.rows[id]? with
  | none => (edges, false)
  | some row =>
      match row[label]? with
      | none => (edges, false)
      | some entry =>
          let rest := entry.erase target
          if prune && rest.isEmpty then
            (dropEntry edges id row label, target ∈ entry)
          else
            (⟨edges.rows.insert id (row.insert label rest)⟩, target ∈ entry)

/-- Joins two objects, on both sides. -/
def link (edges : Adjacency) (left : ObjectId) (label : Label) (right : ObjectId) :
    Adjacency × Bool :=
  let (half, added) := attach edges left label right
  ((attach half right label left).1, added)

/-- Parts two objects, on both sides.  An object has one side only towards itself. -/
def unlink (prune : Bool) (edges : Adjacency) (left : ObjectId) (label : Label)
    (right : ObjectId) : Adjacency × Bool :=
  let (half, removed) := detach prune edges left label right
  if left = right then (half, removed)
  else ((detach prune half right label left).1, removed)

/-- Makes a step with each of some objects, and counts the steps that have told a change. -/
def each (step : Adjacency → ObjectId → Adjacency × Bool) (edges : Adjacency)
    (targets : IdSet) : Adjacency × Nat :=
  targets.foldl
    (fun (edges, count) target =>
      let (edges, changed) := step edges target
      (edges, count + changed.toNat))
    (edges, 0)

/-- Joins an object with each of a set. -/
def linkEach (edges : Adjacency) (id : ObjectId) (label : Label) (targets : IdSet) :
    Adjacency × Nat :=
  each (fun edges target => link edges id label target) edges targets

/-- Parts an object from each of a set. -/
def unlinkEach (prune : Bool) (edges : Adjacency) (id : ObjectId) (label : Label)
    (targets : IdSet) : Adjacency × Nat :=
  each (fun edges target => unlink prune edges id label target) edges targets

/-- Drops an entry, if it is stored. -/
def forget (edges : Adjacency) (id : ObjectId) (label : Label) : Adjacency :=
  match edges.rows[id]? with
  | none => edges
  | some row => dropEntry edges id row label

/-- Puts an entry in the place of the one before, in a row that is opened if need be. -/
def record (edges : Adjacency) (id : ObjectId) (label : Label) (targets : IdSet) : Adjacency :=
  ⟨(edges.rows.insertIfNew id ∅).modify id (·.insert label targets)⟩

end InPlace

/-! ## One entry -/

variable {edges : Adjacency} {id : ObjectId} {label : Label}

/-- A changed row is stored, or dropped if it is empty. -/
theorem alter_eq_ite (edges : Adjacency) (id : ObjectId) (label : Label)
    (change : Option IdSet → Option IdSet) :
    edges.alter id label change =
      if ((edges.row id).alter label change).isEmpty then ⟨edges.rows.erase id⟩
      else ⟨edges.rows.insert id ((edges.row id).alter label change)⟩ := by
  split
  · rename_i vacant
    exact congrArg Adjacency.mk (alter_eq_erase (if_pos vacant))
  · rename_i occupied
    exact congrArg Adjacency.mk (alter_eq_insert (if_neg occupied))

/-- A changed entry is stored in its row, and the row is stored. -/
theorem alter_of_some {change : Option IdSet → Option IdSet} {entry : IdSet}
    (changed : change (edges.find? id label) = some entry) :
    edges.alter id label change = ⟨edges.rows.insert id ((edges.row id).insert label entry)⟩ := by
  have row_eq : (edges.row id).alter label change = (edges.row id).insert label entry :=
    alter_eq_insert changed
  simp [alter_eq_ite, row_eq]

/-- An entry is dropped from its row, and the row if it was the last. -/
theorem alter_of_none {change : Option IdSet → Option IdSet}
    (changed : change (edges.find? id label) = none) :
    edges.alter id label change = InPlace.dropEntry edges id (edges.row id) label := by
  have row_eq : (edges.row id).alter label change = (edges.row id).erase label :=
    alter_eq_erase changed
  rw [alter_eq_ite, row_eq, InPlace.dropEntry]

/-- Where no row is empty, nothing changes with an entry that was not there and is not there
afterwards. -/
theorem alter_of_absent (rows : edges.NoEmptyRow) {change : Option IdSet → Option IdSet}
    (absent : edges.find? id label = none) (changed : change none = none) :
    edges.alter id label change = edges := by
  apply ext_find? (noEmptyRow_alter rows id label change) rows
  intro other otherLabel
  rw [find?_alter]
  split
  · rename_i same
    rw [← same.1, ← same.2, absent, changed]
  · rfl

namespace InPlace

theorem attach_eq (edges : Adjacency) (id : ObjectId) (label : Label) (target : ObjectId) :
    attach edges id label target =
      (edges.attach id label target, decide (target ∉ edges.neighbours id label)) := by
  rw [attach, modify_insertIfNew, modify_insertIfNew, Adjacency.attach, alter_of_some rfl]
  rfl

/-- Where no row is empty, taking an object out in place is the same change. -/
theorem detach_eq (prune : Bool) (rows : edges.NoEmptyRow) (id : ObjectId) (label : Label)
    (target : ObjectId) :
    detach prune edges id label target =
      (edges.detach prune id label target, decide (target ∈ edges.neighbours id label)) := by
  have unchanged : edges.find? id label = none →
      (edges, false) =
        (edges.detach prune id label target, decide (target ∈ edges.neighbours id label)) := by
    intro absent
    rw [Adjacency.detach, alter_of_absent rows absent rfl]
    simp [neighbours, absent]
  unfold detach
  cases storedRow : edges.rows[id]? with
  | none => exact unchanged (by simp [find?, row, storedRow])
  | some row =>
      have row_eq : edges.row id = row := by simp [Adjacency.row, storedRow]
      cases stored : row[label]? with
      | none =>
          simp only [stored]
          exact unchanged (by rw [find?, row_eq, stored])
      | some entry =>
          have found : edges.find? id label = some entry := by rw [find?, row_eq, stored]
          have neighbours_eq : edges.neighbours id label = entry := by simp [neighbours, found]
          simp only [stored, neighbours_eq, Adjacency.detach]
          split
          · rename_i vacant
            rw [alter_of_none (by simp only [found, vacant, if_true]), row_eq]
          · rename_i kept
            rw [alter_of_some (by simp only [found, kept]; rfl), row_eq]

theorem forget_eq (edges : Adjacency) (id : ObjectId) (label : Label) :
    forget edges id label = edges.assign id label ∅ := by
  rw [assign, alter_of_none (by simp), row, forget]
  cases storedRow : edges.rows[id]? with
  | none => simp [dropEntry, erase_of_getElem?_eq_none storedRow]
  | some row => rfl

theorem record_eq (edges : Adjacency) (id : ObjectId) (label : Label) {targets : IdSet}
    (nonempty : targets ≠ ∅) :
    record edges id label targets = edges.assign id label targets := by
  have occupied : ¬targets.isEmpty = true := fun vacant =>
    nonempty (Std.ExtTreeSet.isEmpty_iff.mp vacant)
  rw [record, modify_insertIfNew, assign, alter_of_some (if_neg occupied)]
  rfl

/-! ## One pair -/

theorem link_eq (edges : Adjacency) (left : ObjectId) (label : Label) (right : ObjectId) :
    link edges left label right =
      (edges.link left label right, decide (right ∉ edges.neighbours left label)) := by
  simp only [link, attach_eq, Adjacency.link]

/-- What has been taken out of an entry need not be taken out again. -/
theorem detach_detach (prune : Bool) (rows : edges.NoEmptyRow) (id : ObjectId) (label : Label)
    (target : ObjectId) :
    (edges.detach prune id label target).detach prune id label target =
      edges.detach prune id label target := by
  apply ext_find? (noEmptyRow_alter (noEmptyRow_alter rows id label _) id label _)
    (noEmptyRow_alter rows id label _)
  intro otherId otherLabel
  simp only [find?_alter, and_self, if_true]
  split
  · cases edges.find? id label with
    | none => rfl
    | some entry =>
        -- An entry that stays does not have the object any more.
        by_cases vacant : (prune && (entry.erase target).isEmpty) = true
        · simp [vacant]
        · have again : (entry.erase target).erase target = entry.erase target := by
            apply Std.ExtTreeSet.ext_mem
            intro x
            simp [Std.ExtTreeSet.mem_erase]
          simp only [if_neg vacant, again]
  · rfl

theorem unlink_eq (prune : Bool) (rows : edges.NoEmptyRow) (left : ObjectId) (label : Label)
    (right : ObjectId) :
    unlink prune edges left label right =
      (edges.unlink prune left label right, decide (right ∈ edges.neighbours left label)) := by
  have half : (edges.detach prune left label right).NoEmptyRow :=
    noEmptyRow_alter rows left label _
  simp only [unlink, detach_eq prune rows, detach_eq prune half, Adjacency.unlink]
  split
  · -- With itself an object is parted once in place, and from both sides by `unlink`.
    rename_i same
    subst same
    rw [detach_detach prune rows]
  · rfl

/-! ## Many pairs -/

/-- Steps with objects make the changes `next`, where `kept` holds, and tell of each object
what steps with other objects do not bear on. -/
structure Tells (kept : Adjacency → Prop) (step : Adjacency → ObjectId → Adjacency × Bool)
    (next : Adjacency → ObjectId → Adjacency) (told : Adjacency → ObjectId → Bool) : Prop where
  step_eq : ∀ edges target, kept edges →
    step edges target = (next edges target, told edges target)
  keeps : ∀ edges target, kept edges → kept (next edges target)
  apart : ∀ edges target other, target ≠ other →
    told (next edges target) other = told edges other

namespace Tells

variable {kept : Adjacency → Prop} {step : Adjacency → ObjectId → Adjacency × Bool}
  {next : Adjacency → ObjectId → Adjacency} {told : Adjacency → ObjectId → Bool}

/-- The first step has no part in what is told of the objects after it. -/
theorem foldl_eq (tells : Tells kept step next told) (holds : kept edges)
    {targets : List ObjectId} (distinct : targets.Nodup) (count : Nat) :
    targets.foldl
        (fun (edges, count) target =>
          let (edges, changed) := step edges target
          (edges, count + changed.toNat))
        (edges, count) =
      (targets.foldl next edges, count + targets.countP (told edges)) := by
  induction targets generalizing edges count with
  | nil => rfl
  | cons target rest ih =>
      rw [List.nodup_cons] at distinct
      have same : rest.countP (told (next edges target)) = rest.countP (told edges) := by
        apply List.countP_congr
        intro other member
        rw [tells.apart edges target other (fun same => distinct.1 (same ▸ member))]
      simp only [List.foldl_cons, tells.step_eq edges target holds,
        ih (tells.keeps edges target holds) distinct.2, same, List.countP_cons,
        Prod.mk.injEq, true_and]
      cases told edges target <;> simp [Nat.add_comm, Nat.add_left_comm]

/-- The steps are counted by what is told of the objects before the first of them. -/
theorem each_eq (tells : Tells kept step next told) (holds : kept edges) (targets : IdSet) :
    each step edges targets =
      (targets.foldl next edges, targets.toList.countP (told edges)) := by
  rw [each, Std.ExtTreeSet.foldl_eq_foldl_toList, Std.ExtTreeSet.foldl_eq_foldl_toList,
    tells.foldl_eq holds targets.nodup_toList, Nat.zero_add]

end Tells

theorem tells_link (id : ObjectId) (label : Label) :
    Tells (fun _ => True) (fun edges target => link edges id label target)
      (fun edges target => edges.link id label target)
      (fun edges target => target ∉ edges.neighbours id label) where
  step_eq edges target _ := link_eq edges id label target
  keeps _ _ _ := trivial
  apart edges target other different := by
    simp only [mem_neighbours_link]
    grind

theorem tells_unlink (prune : Bool) (id : ObjectId) (label : Label) :
    Tells NoEmptyRow (fun edges target => unlink prune edges id label target)
      (fun edges target => edges.unlink prune id label target)
      (fun edges target => target ∈ edges.neighbours id label) where
  step_eq _ target rows := unlink_eq prune rows id label target
  keeps _ _ rows := noEmptyRow_alter (noEmptyRow_alter rows id label _) _ label _
  apart edges target other different := by
    simp only [mem_neighbours_unlink]
    grind

theorem linkEach_eq (edges : Adjacency) (id : ObjectId) (label : Label) (targets : IdSet) :
    linkEach edges id label targets =
      (edges.linkAll id label targets, (targets \ edges.neighbours id label).size) := by
  rw [linkEach, (tells_link id label).each_eq trivial, IdSet.size_diff, linkAll]

theorem unlinkEach_eq (prune : Bool) (rows : edges.NoEmptyRow) (id : ObjectId)
    (label : Label) (targets : IdSet) :
    unlinkEach prune edges id label targets =
      (edges.unlinkAll prune id label targets,
        (targets ∩ edges.neighbours id label).size) := by
  rw [unlinkEach, (tells_unlink prune id label).each_eq rows, IdSet.size_inter, unlinkAll]

end InPlace

end Adjacency

end InventoryGraph
