import InventoryGraph.Adjacency.Entry

/-!
# Reach

What can be reached from a list of objects along the edges of one label.  The search is
breadth first: it keeps the objects visited so far, and a queue of those whose neighbours
have yet to be visited.  An object is queued only when it is first visited, so cycles do
not keep the search going.

A step takes one object out of the queue, and may put many in.  What it puts in are objects
of some entry that were not visited before.  So the objects of entries that are not visited,
counted together with those in the queue, are one less after each step (`weight_step`).
-/

namespace InventoryGraph

namespace IdSet

/-- One object less is in a set without one that was there. -/
theorem size_erase_add_one {ids : IdSet} {id : ObjectId} (member : id ∈ ids) :
    (ids.erase id).size + 1 = ids.size := by
  have nonempty : ids.size ≠ 0 := by
    intro size
    rw [Std.ExtTreeSet.eq_empty_iff_size_eq_zero.mpr size] at member
    exact Std.ExtTreeSet.not_mem_empty member
  rw [Std.ExtTreeSet.size_erase, if_pos (Std.ExtTreeSet.mem_iff_contains.mp member)]
  omega

theorem diff_insert (ids others : IdSet) (id : ObjectId) :
    ids \ others.insert id = (ids \ others).erase id := by
  apply Std.ExtTreeSet.ext_mem
  intro x
  simp only [Std.ExtTreeSet.mem_diff_iff, Std.ExtTreeSet.mem_insert, Std.ExtTreeSet.mem_erase,
    not_or]
  exact and_left_comm

end IdSet

/-- All objects in the entries of an adjacency. -/
def Adjacency.targets (edges : Adjacency) : IdSet :=
  .ofList (edges.rows.toList.flatMap fun (_, row) =>
    row.toList.flatMap fun (_, entry) => entry.toList)

theorem Adjacency.mem_targets {edges : Adjacency} {id : ObjectId} {label : Label}
    {x : ObjectId} (member : x ∈ edges.neighbours id label) : x ∈ edges.targets := by
  obtain ⟨row, storedRow, entry, stored, member⟩ := mem_neighbours_iff.mp member
  rw [targets, Std.ExtTreeSet.mem_ofList, List.contains_iff_mem, List.mem_flatMap]
  have listed : x ∈ row.toList.flatMap fun (_, entry) => entry.toList := by
    apply List.mem_flatMap.mpr
    exact ⟨(label, entry), Std.ExtTreeMap.mem_toList_iff_getElem?_eq_some.mpr stored,
      Std.ExtTreeSet.mem_toList.mpr member⟩
  exact ⟨(id, row), Std.ExtTreeMap.mem_toList_iff_getElem?_eq_some.mpr storedRow, listed⟩

/-- A breadth-first search. -/
structure Search where
  visited : IdSet
  /-- The visited objects whose neighbours have yet to be visited, the next one first. -/
  queue : List ObjectId

namespace Search

/-- Visits an object and queues it, unless it has been visited. -/
def push (search : Search) (id : ObjectId) : Search :=
  if id ∈ search.visited then search
  else ⟨search.visited.insert id, search.queue ++ [id]⟩

/-- Visits some objects one after the other. -/
def pushAll (search : Search) (ids : List ObjectId) : Search :=
  ids.foldl push search

/-- The search from some seeds, before its first step. -/
def start (seeds : List ObjectId) : Search :=
  pushAll ⟨∅, []⟩ seeds

/-- Takes the next object out of the queue and visits its neighbours.  A search without a
queue stays as it is. -/
def step (edges : Adjacency) (label : Label) (search : Search) : Search :=
  match search.queue with
  | [] => search
  | id :: queue =>
      match edges.find? id label with
      | none => { search with queue := queue }
      | some entry => pushAll { search with queue := queue } entry.toList

/-- How many steps a search can take at most: one for each object that is queued, and one
for each that is not visited and can be. -/
def weight (edges : Adjacency) (search : Search) : Nat :=
  (edges.targets \ search.visited).size + search.queue.length

/-! ## The weight of a search -/

variable {edges : Adjacency} {label : Label}

@[simp]
theorem pushAll_nil (search : Search) : search.pushAll [] = search :=
  rfl

@[simp]
theorem pushAll_cons (search : Search) (id : ObjectId) (ids : List ObjectId) :
    search.pushAll (id :: ids) = (search.push id).pushAll ids :=
  rfl

theorem step_of_nil {search : Search} (vacant : search.queue = []) :
    search.step edges label = search := by
  rw [step, vacant]

/-- A step visits the neighbours of the next object. -/
theorem step_cons (edges : Adjacency) (label : Label) (visited : IdSet) (id : ObjectId)
    (queue : List ObjectId) :
    step edges label ⟨visited, id :: queue⟩ =
      pushAll ⟨visited, queue⟩ (edges.neighbours id label).toList := by
  simp only [step, Adjacency.neighbours]
  cases edges.find? id label with
  | none =>
      have nothing : (∅ : IdSet).toList = [] := Std.ExtTreeSet.toList_eq_nil_iff.mpr rfl
      rw [Option.getD_none, nothing, pushAll_nil]
  | some entry => rfl

/-- An object that is visited and queued keeps the weight. -/
theorem weight_push (search : Search) {id : ObjectId} (target : id ∈ edges.targets) :
    (search.push id).weight edges = search.weight edges := by
  unfold push
  split
  · rfl
  · rename_i fresh
    have unvisited : id ∈ edges.targets \ search.visited :=
      Std.ExtTreeSet.mem_diff_iff.mpr ⟨target, fresh⟩
    have spent := IdSet.size_erase_add_one unvisited
    simp only [weight, IdSet.diff_insert, List.length_append, List.length_singleton]
    omega

theorem weight_pushAll (search : Search) {ids : List ObjectId}
    (targets : ∀ id ∈ ids, id ∈ edges.targets) :
    (search.pushAll ids).weight edges = search.weight edges := by
  induction ids generalizing search with
  | nil => rfl
  | cons id ids ih =>
      rw [List.forall_mem_cons] at targets
      rw [pushAll_cons, ih _ targets.2, weight_push search targets.1]

/-- Each step takes one off the weight. -/
theorem weight_step (edges : Adjacency) (label : Label) {search : Search}
    (queued : search.queue ≠ []) :
    (search.step edges label).weight edges + 1 = search.weight edges := by
  obtain ⟨visited, queue⟩ := search
  cases queue with
  | nil => contradiction
  | cons id queue =>
      have targets : ∀ x ∈ (edges.neighbours id label).toList, x ∈ edges.targets :=
        fun x member => Adjacency.mem_targets (Std.ExtTreeSet.mem_toList.mp member)
      rw [step_cons, weight_pushAll _ targets]
      simp only [weight, List.length_cons]
      omega

/-! ## The whole search -/

/-- Takes steps until the queue is empty. -/
def run (edges : Adjacency) (label : Label) (search : Search) : IdSet :=
  if search.queue = [] then search.visited
  else run edges label (search.step edges label)
termination_by search.weight edges
decreasing_by
  rename_i queued
  have spent := weight_step edges label queued
  omega

end Search

/-- The objects that can be reached from any of `seeds` along edges of a label,
the seeds among them. -/
def Adjacency.reach (edges : Adjacency) (seeds : List ObjectId) (label : Label) : IdSet :=
  (Search.start seeds).run edges label

end InventoryGraph
