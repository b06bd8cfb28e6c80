import InventoryGraph.History
import InventoryGraph.Proofs.Links
import InventoryGraph.Query
import Mathlib.Data.List.Induction

/-!
# What a query answers

A query is put together part by part, and of each sort of part only the last one
counts (`ofParts_eq_lastGiven`).  What its label, group, kind and limit ask for is
stated without regard to the order of checks and steps: when the query fails and with
what failure, which part of the links it selects, and what the limit leaves of it
(`Answers`).

Keys of links are distinct, so the bucket that a query keeps is the only one with its
key (`narrow_eq_singleton`), and as no bucket is empty, a limit that is not reached
leaves the links as they are (`limit_eq_self`).
-/

namespace InventoryGraph

namespace Links

/-! ## Narrowed and limited links -/

theorem narrow_eq_nil {links : Links} {key : GroupKind}
    (absent : ∀ bucket ∈ links, bucket.key ≠ key) : links.narrow key = [] := by
  rw [narrow, List.filter_eq_nil_iff]
  intro bucket member
  simpa using absent bucket member

/-- Links with distinct keys have at most one bucket of a key. -/
theorem narrow_eq_singleton {links : Links}
    (distinct : links.Pairwise fun left right => left.key ≠ right.key) {bucket : Bucket}
    (member : bucket ∈ links) : links.narrow bucket.key = [bucket] := by
  induction links with
  | nil => simp at member
  | cons first rest ih =>
      rw [List.pairwise_cons] at distinct
      rcases List.mem_cons.mp member with rfl | later
      · have others : narrow bucket.key rest = [] :=
          narrow_eq_nil fun other inside => (distinct.1 other inside).symm
        rw [narrow, List.filter_cons_of_pos (by simp)]
        exact congrArg (List.cons bucket) others
      · have skipped := distinct.1 bucket later
        rw [narrow, List.filter_cons_of_neg (by simpa using skipped)]
        exact ih distinct.2 later

/-- A limit that is not reached leaves everything. -/
theorem limit_eq_self {links : Links} (nonempty : ∀ bucket ∈ links, bucket.members ≠ [])
    {budget : Nat} (fits : links.flatten.length ≤ budget) : links.limit budget = links := by
  induction links generalizing budget with
  | nil => rfl
  | cons bucket rest ih =>
      obtain ⟨key, members⟩ := bucket
      rw [List.forall_mem_cons] at nonempty
      simp only [flatten_cons, List.length_append] at fits
      have whole : members.take budget = members := List.take_of_length_le (by omega)
      have kept : members.isEmpty = false := by simpa using nonempty.1
      have later : limit (budget - members.length) rest = rest := ih nonempty.2 (by omega)
      simp [limit, whole, kept, later]

end Links

namespace Query

/-! ## The last part of a sort -/

namespace Part

/-- The label that a part gives. -/
def label? : Part → Option Label
  | .label given => some given
  | _ => none

/-- The group that a part gives. -/
def group? : Part → Option String
  | .group given => some given
  | _ => none

/-- The kind that a part gives. -/
def kind? : Part → Option String
  | .kind given => some given
  | _ => none

/-- The limit that a part gives. -/
def limit? : Part → Option Nat
  | .limit given => some given
  | _ => none

end Part

/-- What the last of the parts of a sort gives, if there is one. -/
def lastGiven {α : Type} (given : Part → Option α) (parts : List Part) : Option α :=
  (parts.filterMap given).getLast?

theorem lastGiven_concat {α : Type} (given : Part → Option α) (parts : List Part)
    (part : Part) :
    lastGiven given (parts ++ [part]) = (given part).or (lastGiven given parts) := by
  cases found : given part <;> simp [lastGiven, found]

/-- Only the last part of each sort counts. -/
theorem ofParts_eq_lastGiven (parts : List Part) :
    ofParts parts =
      { label := lastGiven Part.label? parts
        group := lastGiven Part.group? parts
        kind := lastGiven Part.kind? parts
        limit := lastGiven Part.limit? parts } := by
  induction parts using List.reverseRecOn with
  | nil => rfl
  | append_singleton parts part ih =>
      have step : ofParts (parts ++ [part]) = (ofParts parts).set part := by
        simp [ofParts]
      rw [step, ih]
      cases part <;>
        simp [set, lastGiven_concat, Part.label?, Part.group?, Part.kind?, Part.limit?]

/-! ## What is asked for -/

/-- A group other than the core group is given, and no kind. -/
def Unkinded (group kind : Option String) : Prop :=
  (∃ name, group = some name ∧ name ≠ "") ∧ kind = none

/-- What a group and a kind select of some links: without a kind all of them, and with
a kind its bucket alone, in the core group unless a group is given, or nothing if
there is no such bucket. -/
def Selects (group kind : Option String) (links selected : Links) : Prop :=
  match kind with
  | none => selected = links
  | some kind =>
      (∃ bucket ∈ links, bucket.key = ⟨group.getD "", kind⟩ ∧ selected = [bucket]) ∨
        (∀ bucket ∈ links, bucket.key ≠ ⟨group.getD "", kind⟩) ∧ selected = []

/-- What a limit leaves of some links: as many objects from their beginning, and all
of them as they are if there are no more. -/
def Leaves (limit : Option Nat) (selected left : Links) : Prop :=
  match limit with
  | none => left = selected
  | some limit =>
      left = selected.limit limit ∧ left.flatten = selected.flatten.take limit ∧
        (selected.size ≤ limit → left = selected)

/-- What the label, group, kind and limit of a query ask for, of the links of an
object. -/
structure Answers (graph : Graph) (id : ObjectId) (query : Query)
    (answer : Except Failure Links) : Prop where
  /-- It fails only without a label, or without a kind in a group. -/
  fails_iff : (∃ cause, answer = .error cause) ↔
    query.label = none ∨ Unkinded query.group query.kind
  /-- A missing label is told first. -/
  unlabelled : query.label = none → answer = .error labelMissing
  unkinded : query.label ≠ none → Unkinded query.group query.kind →
    answer = .error kindMissing
  /-- The limit comes after the selection. -/
  found : ∀ label, query.label = some label → ¬Unkinded query.group query.kind →
    ∃ links selected left, graph.links id label = .ok links ∧
      Selects query.group query.kind links selected ∧ Leaves query.limit selected left ∧
        answer = .ok left

/-! ## What is answered -/

section

variable {query : Query} {graph : Graph} {id : ObjectId}

theorem plan_of_unlabelled (missing : query.label = none) :
    query.plan = .error labelMissing := by
  rw [plan, missing]

theorem plan_of_unkinded {label : Label} (labelled : query.label = some label)
    (unkinded : Unkinded query.group query.kind) : query.plan = .error kindMissing := by
  obtain ⟨⟨name, given, qualified⟩, missing⟩ := unkinded
  simp [plan, labelled, selection, given, missing, qualified, Except.map]

theorem plan_of_kinded {label : Label} (labelled : query.label = some label)
    (kinded : ¬Unkinded query.group query.kind) :
    query.plan =
      .ok (label, query.kind.map fun kind => ⟨query.group.getD "", kind⟩) := by
  cases kind : query.kind with
  | some kind => simp [plan, labelled, selection, kind, Except.map]
  | none =>
      cases group : query.group with
      | none => simp [plan, labelled, selection, group, kind, Except.map]
      | some name =>
          have core : name = "" := by
            by_contra qualified
            exact kinded ⟨⟨name, group, qualified⟩, kind⟩
          simp [plan, labelled, selection, group, kind, core, Except.map]

/-- The bucket of a kind is what the kind selects. -/
theorem selects_narrow {links : Links} {member : ObjectId → Prop}
    (listing : links.IsListing member) (group : Option String) (kind : String) :
    Selects group (some kind) links (links.narrow ⟨group.getD "", kind⟩) := by
  have distinct : links.Pairwise fun left right => left.key ≠ right.key := by
    apply listing.ordered.imp
    intro left right before same
    simp [same] at before
  by_cases present : ∃ bucket ∈ links, bucket.key = ⟨group.getD "", kind⟩
  · left
    obtain ⟨bucket, member, key⟩ := present
    rw [← key]
    exact ⟨bucket, member, rfl, Links.narrow_eq_singleton distinct member⟩
  · right
    have absent : ∀ bucket ∈ links, bucket.key ≠ ⟨group.getD "", kind⟩ :=
      fun bucket member key => present ⟨bucket, member, key⟩
    exact ⟨absent, Links.narrow_eq_nil absent⟩

theorem leaves_limit {selected : Links} (nonempty : ∀ bucket ∈ selected, bucket.members ≠ [])
    (limit : Nat) : Leaves (some limit) selected (selected.limit limit) := by
  refine ⟨rfl, Links.flatten_limit limit selected, fun fits => ?_⟩
  rw [Links.size_eq_length_flatten] at fits
  exact Links.limit_eq_self nonempty fits

theorem nonempty_narrow {links : Links} (nonempty : ∀ bucket ∈ links, bucket.members ≠ [])
    (key : GroupKind) : ∀ bucket ∈ links.narrow key, bucket.members ≠ [] :=
  fun bucket inside => nonempty bucket (List.mem_filter.mp inside).1

/-- A query that can be carried out selects from the links under its label, and then
limits what it has selected. -/
theorem exists_grouped_eq_ok {label : Label} (labelled : query.label = some label)
    (kinded : ¬Unkinded query.group query.kind) :
    ∃ links selected left, graph.links id label = .ok links ∧
      Selects query.group query.kind links selected ∧ Leaves query.limit selected left ∧
        query.grouped graph id = .ok left := by
  obtain ⟨links, looked, listing⟩ := graph.exists_links id label
  have answered : query.grouped graph id =
      .ok (query.select (query.kind.map fun kind => ⟨query.group.getD "", kind⟩) links) := by
    rw [grouped, plan_of_kinded labelled kinded]
    simp only [bind, Except.bind, looked]
    rfl
  obtain ⟨_, group, kind, limit⟩ := query
  cases kind with
  | none =>
      cases limit with
      | none => exact ⟨links, links, links, looked, rfl, rfl, answered⟩
      | some limit =>
          exact ⟨links, links, _, looked, rfl, leaves_limit listing.nonempty limit, answered⟩
  | some kind =>
      have selects := selects_narrow listing group kind
      cases limit with
      | none => exact ⟨links, _, _, looked, selects, rfl, answered⟩
      | some limit =>
          have leaves := leaves_limit
            (nonempty_narrow listing.nonempty ⟨group.getD "", kind⟩) limit
          exact ⟨links, _, _, looked, selects, leaves, answered⟩

theorem grouped_of_plan_error {cause : Failure} (planned : query.plan = .error cause) :
    query.grouped graph id = .error cause := by
  rw [grouped, planned]
  rfl

end

theorem answers_grouped (query : Query) (graph : Graph) (id : ObjectId) :
    Answers graph id query (query.grouped graph id) where
  unlabelled missing := grouped_of_plan_error (plan_of_unlabelled missing)
  unkinded labelled unkinded := by
    obtain ⟨label, labelled⟩ := Option.ne_none_iff_exists'.mp labelled
    exact grouped_of_plan_error (plan_of_unkinded labelled unkinded)
  found label labelled kinded := exists_grouped_eq_ok labelled kinded
  fails_iff := by
    cases labelled : query.label with
    | none =>
        have failed : query.grouped graph id = .error labelMissing :=
          grouped_of_plan_error (plan_of_unlabelled labelled)
        simp [failed]
    | some label =>
        by_cases unkinded : Unkinded query.group query.kind
        · have failed : query.grouped graph id = .error kindMissing :=
            grouped_of_plan_error (plan_of_unkinded labelled unkinded)
          simp [failed, unkinded]
        · have answered : ∃ left, query.grouped graph id = .ok left := by
            obtain ⟨_, _, left, _, _, _, answered⟩ := exists_grouped_eq_ok labelled unkinded
            exact ⟨left, answered⟩
          obtain ⟨left, answered⟩ := answered
          simp [answered, unkinded]

/-- A query with any parts answers, for every object, what the last label, the last
group, the last kind and the last limit among them ask for. -/
theorem answers_grouped_ofParts (graph : Graph) (id : ObjectId) (parts : List Part) :
    Answers graph id
      { label := lastGiven Part.label? parts
        group := lastGiven Part.group? parts
        kind := lastGiven Part.kind? parts
        limit := lastGiven Part.limit? parts }
      ((ofParts parts).grouped graph id) := by
  rw [ofParts_eq_lastGiven]
  exact answers_grouped _ graph id

/-- A query for pods that has changed its mind about the kind, the label and the limit,
and one that is told of its missing label and not of its missing kind. -/
theorem pods_of_web_and_nothing_of_apps :
    (∃ links selected left,
      (Graph.run (.fresh {}) Example.inTurns).links Example.web .offshoot = .ok links ∧
      Selects (some "") (some "Pod") links selected ∧ Leaves (some 1) selected left ∧
      (ofParts [.limit 0, .kind "Service", .label .storage, .group "", .kind "Pod", .limit 1,
          .label .offshoot]).grouped (Graph.run (.fresh {}) Example.inTurns) Example.web =
        .ok left) ∧
    (ofParts [.group "", .group "apps"]).grouped (Graph.run (.fresh {}) Example.inTurns)
      Example.web = .error labelMissing := by
  have pods := answers_grouped_ofParts (Graph.run (.fresh {}) Example.inTurns) Example.web
    [.limit 0, .kind "Service", .label .storage, .group "", .kind "Pod", .limit 1,
      .label .offshoot]
  have apps := answers_grouped_ofParts (Graph.run (.fresh {}) Example.inTurns) Example.web
    [.group "", .group "apps"]
  have kinded : ¬Unkinded (some "") (some "Pod") := by
    simp [Unkinded]
  exact ⟨pods.found .offshoot rfl kinded, apps.unlabelled rfl⟩

end Query

end InventoryGraph
