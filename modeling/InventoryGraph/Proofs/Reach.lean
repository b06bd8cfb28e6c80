import InventoryGraph.Reach
import Mathlib.Data.List.Chain
import Mathlib.Logic.Function.Iterate

/-!
# What a reach holds

A reach is the closure of its seeds: it holds an object exactly when a finite
path of edges leads there from a seed.  No shape of the adjacency is assumed; it
may have cycles, edges stored at one end only, and empty entries.

The search keeps an invariant (`Search.Invariant`): what it has visited can be reached,
what it has queued is visited, and edges from a visited object that has left the queue
lead to visited objects only.  With an empty queue the objects visited are closed under
edges, and so they are all that can be reached.

Each object is queued when it is first visited, and leaves the queue in a step of its own.
So the search takes exactly as many steps as it finds objects (`Search.queue_iterate_eq_nil_iff`).

Main statement: the search ends, and what it has visited then are the ends of walks
(`search_finds_ends_of_walks`).
-/

namespace InventoryGraph

namespace Adjacency

/-- One step along an edge of a label. -/
def Step (edges : Adjacency) (label : Label) (source target : ObjectId) : Prop :=
  target ∈ edges.neighbours source label

/-- A finite path along edges of a label leads from one object to another. -/
def Connected (edges : Adjacency) (label : Label) : ObjectId → ObjectId → Prop :=
  Relation.ReflTransGen (edges.Step label)

end Adjacency

namespace Search

/-! ## Visits -/

theorem mem_visited_push (search : Search) (id x : ObjectId) :
    x ∈ (search.push id).visited ↔ x = id ∨ x ∈ search.visited := by
  unfold push
  split
  · rename_i seen
    constructor
    · exact Or.inr
    · rintro (rfl | old)
      · exact seen
      · exact old
  · rw [Std.ExtTreeSet.mem_insert, Std.LawfulEqOrd.compare_eq_iff_eq, eq_comm]

theorem mem_queue_push (search : Search) (id x : ObjectId) :
    x ∈ (search.push id).queue ↔ x ∈ search.queue ∨ (x = id ∧ x ∉ search.visited) := by
  unfold push
  split
  · rename_i seen
    constructor
    · exact Or.inl
    · rintro (old | ⟨rfl, fresh⟩)
      · exact old
      · exact absurd seen fresh
  · rename_i fresh
    rw [List.mem_append, List.mem_singleton]
    constructor
    · rintro (old | rfl)
      · exact Or.inl old
      · exact Or.inr ⟨rfl, fresh⟩
    · rintro (old | ⟨same, _⟩)
      · exact Or.inl old
      · exact Or.inr same

/-- A visit that is the first one of its object adds it to the objects visited and to the
queue, and any other adds nothing. -/
theorem size_push (search : Search) (id : ObjectId) :
    (search.push id).visited.size + search.queue.length =
      search.visited.size + (search.push id).queue.length := by
  unfold push
  split
  · rfl
  · rename_i fresh
    simp only [Std.ExtTreeSet.size_insert, Std.ExtTreeSet.contains_iff_mem, fresh, if_false,
      List.length_append, List.length_singleton]
    omega

theorem mem_visited_pushAll (search : Search) (ids : List ObjectId) (x : ObjectId) :
    x ∈ (search.pushAll ids).visited ↔ x ∈ ids ∨ x ∈ search.visited := by
  induction ids generalizing search with
  | nil => simp
  | cons id ids ih =>
      rw [pushAll_cons, ih, mem_visited_push, List.mem_cons]
      tauto

/-- Of some objects those are queued that have not been visited before. -/
theorem mem_queue_pushAll (search : Search) (ids : List ObjectId) (x : ObjectId) :
    x ∈ (search.pushAll ids).queue ↔ x ∈ search.queue ∨ (x ∈ ids ∧ x ∉ search.visited) := by
  induction ids generalizing search with
  | nil => simp
  | cons id ids ih =>
      rw [pushAll_cons, ih, mem_queue_push, mem_visited_push, List.mem_cons]
      tauto

theorem size_pushAll (search : Search) (ids : List ObjectId) :
    (search.pushAll ids).visited.size + search.queue.length =
      search.visited.size + (search.pushAll ids).queue.length := by
  induction ids generalizing search with
  | nil => rfl
  | cons id ids ih =>
      have first := search.size_push id
      have rest := ih (search.push id)
      rw [pushAll_cons]
      omega

/-! ## The invariant -/

variable {edges : Adjacency} {label : Label} {seeds : List ObjectId} {search : Search}

/-- What holds of a search from some seeds before and after each of its steps. -/
structure Invariant (edges : Adjacency) (label : Label) (seeds : List ObjectId)
    (search : Search) : Prop where
  /-- The seeds are visited first. -/
  seeded : ∀ seed ∈ seeds, seed ∈ search.visited
  /-- What is visited can be reached. -/
  reached : ∀ id ∈ search.visited, ∃ seed ∈ seeds, edges.Connected label seed id
  /-- What is queued is visited. -/
  queued : ∀ id ∈ search.queue, id ∈ search.visited
  /-- What is visited and not queued any more has its neighbours visited. -/
  closed : ∀ id ∈ search.visited, id ∉ search.queue →
    ∀ x, edges.Step label id x → x ∈ search.visited

theorem invariant_start (edges : Adjacency) (label : Label) (seeds : List ObjectId) :
    Invariant edges label seeds (start seeds) where
  seeded seed member := (mem_visited_pushAll _ _ _).mpr (Or.inl member)
  reached id visited := by
    rcases (mem_visited_pushAll _ _ _).mp visited with member | old
    · exact ⟨id, member, .refl⟩
    · exact absurd old Std.ExtTreeSet.not_mem_empty
  queued id queued := by
    rcases (mem_queue_pushAll _ _ _).mp queued with old | ⟨member, _⟩
    · cases old
    · exact (mem_visited_pushAll _ _ _).mpr (Or.inl member)
  closed id visited unqueued := by
    rw [start, mem_queue_pushAll, not_or] at unqueued
    rcases (mem_visited_pushAll _ _ _).mp visited with member | old
    · exact absurd ⟨member, Std.ExtTreeSet.not_mem_empty⟩ unqueued.2
    · exact absurd old Std.ExtTreeSet.not_mem_empty

/-- Neighbours that a step visits are queued, and the object that leaves the queue has all
its neighbours visited. -/
theorem Invariant.step (invariant : Invariant edges label seeds search) :
    Invariant edges label seeds (search.step edges label) := by
  obtain ⟨visited, queue⟩ := search
  cases queue with
  | nil => rwa [step_of_nil rfl]
  | cons id queue =>
      obtain ⟨seeded, reached, queued, closed⟩ := invariant
      rw [step_cons]
      constructor
      · intro seed member
        exact (mem_visited_pushAll _ _ _).mpr (Or.inr (seeded seed member))
      · intro x found
        rcases (mem_visited_pushAll _ _ _).mp found with neighbour | old
        · obtain ⟨seed, member, path⟩ := reached id (queued id List.mem_cons_self)
          have step : edges.Step label id x := Std.ExtTreeSet.mem_toList.mp neighbour
          exact ⟨seed, member, path.tail step⟩
        · exact reached x old
      · intro x waiting
        rw [mem_visited_pushAll]
        rcases (mem_queue_pushAll _ _ _).mp waiting with old | ⟨neighbour, _⟩
        · exact Or.inr (queued x (List.mem_cons_of_mem id old))
        · exact Or.inl neighbour
      · intro x found left y step
        rw [mem_queue_pushAll, not_or] at left
        rw [mem_visited_pushAll]
        by_cases current : x = id
        · subst current
          exact Or.inl (Std.ExtTreeSet.mem_toList.mpr step)
        · -- What this step is the first to visit is queued, so `x` left the queue earlier.
          have old : x ∈ visited := by
            rcases (mem_visited_pushAll _ _ _).mp found with neighbour | old
            · by_contra fresh
              exact left.2 ⟨neighbour, fresh⟩
            · exact old
          have gone : x ∉ id :: queue := by
            rw [List.mem_cons, not_or]
            exact ⟨current, left.1⟩
          exact Or.inr (closed x old gone y step)

/-- The objects visited when nothing is queued are what can be reached. -/
theorem Invariant.mem_visited_iff (invariant : Invariant edges label seeds search)
    (ended : search.queue = []) {x : ObjectId} :
    x ∈ search.visited ↔ ∃ seed ∈ seeds, edges.Connected label seed x := by
  constructor
  · exact invariant.reached x
  · rintro ⟨seed, member, path⟩
    induction path with
    | refl => exact invariant.seeded seed member
    | @tail middle last _ step ih =>
        have unqueued : middle ∉ search.queue := by
          rw [ended]
          exact List.not_mem_nil
        exact invariant.closed middle ih unqueued last step

/-! ## Runs -/

theorem run_of_nil (ended : search.queue = []) : search.run edges label = search.visited := by
  rw [run, if_pos ended]

/-- A step does not change where the search ends. -/
theorem run_step (search : Search) :
    (search.step edges label).run edges label = search.run edges label := by
  by_cases ended : search.queue = []
  · rw [step_of_nil ended]
  · rw [run.eq_def edges label search, if_neg ended]

/-- What holds of a search up to its end holds at its end. -/
theorem Invariant.mem_run_iff (invariant : Invariant edges label seeds search) {x : ObjectId} :
    x ∈ search.run edges label ↔ ∃ seed ∈ seeds, edges.Connected label seed x := by
  induction search using run.induct edges label with
  | case1 search ended => rw [run_of_nil ended, invariant.mem_visited_iff ended]
  | case2 search _ ih => rw [← run_step, ih invariant.step]

/-! ## The number of steps -/

/-- A step takes one object out of the queue, and queues those that it is the first to visit. -/
theorem size_step (edges : Adjacency) (label : Label) (queued : search.queue ≠ []) :
    (search.step edges label).visited.size + search.queue.length =
      search.visited.size + (search.step edges label).queue.length + 1 := by
  obtain ⟨visited, queue⟩ := search
  cases queue with
  | nil => contradiction
  | cons id queue =>
      have pushed := size_pushAll ⟨visited, queue⟩ (edges.neighbours id label).toList
      rw [step_cons]
      simp only [List.length_cons] at pushed ⊢
      omega

theorem size_visited_le (edges : Adjacency) (label : Label) (search : Search) :
    search.visited.size ≤ (search.run edges label).size + search.queue.length := by
  induction search using run.induct edges label with
  | case1 search ended => simp [run_of_nil ended]
  | case2 search queued ih =>
      have stepped := size_step edges label queued
      rw [run_step] at ih
      omega

/-- Steps from here on empty the queue when there are as many as objects to be taken out of it:
those that are queued, and those that will have been visited in the end and are not yet. -/
theorem queue_iterate_eq_nil_iff (search : Search) (n : Nat) :
    ((step edges label)^[n] search).queue = [] ↔
      (search.run edges label).size + search.queue.length ≤ n + search.visited.size := by
  -- A search that has ended stays as it is, and so its queue is empty after any further steps.
  induction search using run.induct edges label generalizing n with
  | case1 search ended =>
      rw [Function.iterate_fixed (step_of_nil ended), run_of_nil ended, ended]
      simp
  | case2 search queued ih =>
      have stepped := size_step edges label queued
      cases n with
      | zero =>
          have later := size_visited_le edges label (search.step edges label)
          rw [run_step] at later
          rw [Function.iterate_zero_apply, iff_false_left queued]
          omega
      | succ n =>
          rw [Function.iterate_succ_apply, ih, run_step]
          omega

theorem run_iterate (search : Search) (n : Nat) :
    ((step edges label)^[n] search).run edges label = search.run edges label := by
  induction n generalizing search with
  | zero => rfl
  | succ n ih => rw [Function.iterate_succ_apply, ih, run_step]

/-- Before the first step as many objects are queued as visited. -/
theorem size_start (seeds : List ObjectId) :
    (start seeds).visited.size = (start seeds).queue.length := by
  simpa [start] using size_pushAll ⟨∅, []⟩ seeds

end Search

namespace Adjacency

/-- A reach holds what its seeds are connected with. -/
theorem mem_reach_iff (edges : Adjacency) (seeds : List ObjectId) (label : Label)
    (x : ObjectId) :
    x ∈ edges.reach seeds label ↔ ∃ seed ∈ seeds, edges.Connected label seed x :=
  (Search.invariant_start edges label seeds).mem_run_iff

/-- A search ends, whatever the edges and the seeds: its queue is empty after as many steps
as there are objects in the reach, and not before, and what it has visited then is the
reach.  The reach holds exactly the objects at the ends of walks, each of zero or more steps
along edges of the label, that start at a seed. -/
theorem search_finds_ends_of_walks (edges : Adjacency) (seeds : List ObjectId)
    (label : Label) :
    (∀ n, ((Search.step edges label)^[n] (.start seeds)).queue = [] ↔
      (edges.reach seeds label).size ≤ n) ∧
    ((Search.step edges label)^[(edges.reach seeds label).size] (.start seeds)).visited =
      edges.reach seeds label ∧
    ∀ x, x ∈ edges.reach seeds label ↔
      ∃ seed ∈ seeds, ∃ walk : List ObjectId,
        (seed :: walk).IsChain (edges.Step label) ∧
          (seed :: walk).getLast (List.cons_ne_nil seed walk) = x := by
  have ends : ∀ n, ((Search.step edges label)^[n] (.start seeds)).queue = [] ↔
      (edges.reach seeds label).size ≤ n := by
    intro n
    rw [Search.queue_iterate_eq_nil_iff, Search.size_start, Nat.add_le_add_iff_right, reach]
  constructor
  · exact ends
  constructor
  · rw [← Search.run_of_nil ((ends _).mpr le_rfl), Search.run_iterate, reach]
  · intro x
    rw [mem_reach_iff]
    constructor
    · rintro ⟨seed, member, path⟩
      rcases List.exists_isChain_cons_of_relationReflTransGen path with ⟨walk, steps, last⟩
      exact ⟨seed, member, walk, steps, last⟩
    · rintro ⟨seed, member, walk, steps, last⟩
      exact ⟨seed, member, List.relationReflTransGen_of_exists_isChain_cons walk steps last⟩

end Adjacency

end InventoryGraph
