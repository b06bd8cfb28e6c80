import InventoryGraph.Proofs.Page
import InventoryGraph.Proofs.TextOrder
import InventoryGraph.Proofs.Undisturbed

/-!
# Pages in the order of text forms

A limit is spent bucket by bucket, in the order of keys, and only then is the answer put in
the order of text forms.  So the limited answers are the beginnings of the answer without a
limit exactly if the buckets, one after another, are in the order of text forms already
(`sortByText_take_iff`, `paged_iff_sorted`).

Within a bucket they always are.  From one bucket to the next they are if groups and kinds
are plain: the keys of the buckets differ in a plain value then, and text forms are in the
order of plain values (`encode_lt_encode_of_groupKind`).  A group that goes on with a
character before the comma comes behind the shorter group as a key and before it in text
forms, and a page may then miss the first object of the list.
-/

namespace InventoryGraph

open ObjectId

/-! ## Buckets in the order of text forms -/

/-- The group and the kind are plain. -/
def GroupKind.Plain (key : GroupKind) : Prop :=
  PlainText key.group ∧ PlainText key.kind

instance (key : GroupKind) : Decidable key.Plain :=
  inferInstanceAs (Decidable (PlainText key.group ∧ PlainText key.kind))

namespace ObjectId

variable {left right : ObjectId}

/-- Ids are compared by their sorts, and within a sort by their keys. -/
theorem compare_eq_then (left right : ObjectId) :
    compare left right =
      (compare left.groupKind right.groupKind).then (compare left.objectKey right.objectKey) := by
  rw [compare_eq, GroupKind.compare_eq, ObjectKey.compare_eq, Ordering.then_assoc]
  rfl

/-- Ids of different sorts differ first in the group or in the kind. -/
theorem firstDifference_of_groupKind_ne (different : left.groupKind ≠ right.groupKind) :
    firstDifference left right = some .group ∨ firstDifference left right = some .kind := by
  by_cases group : left.group = right.group
  · right
    have kind : left.kind ≠ right.kind := by
      intro kind
      exact different (congrArg₂ GroupKind.mk group kind)
    simp [firstDifference, Field.all, Field.get, group, kind]
  · left
    simp [firstDifference, Field.all, Field.get, group]

/-- Text forms of plain sorts are in the order of sorts. -/
theorem encode_lt_encode_of_groupKind (plain : left.groupKind.Plain)
    (otherPlain : right.groupKind.Plain)
    (before : compare left.groupKind right.groupKind = .lt) : left.encode < right.encode := by
  have different : left.groupKind ≠ right.groupKind := by
    intro same
    simp [same] at before
  have less : left < right := by
    change compare left right = .lt
    rw [compare_eq_then, before]
    rfl
  rcases firstDifference_of_groupKind_ne different with first | first
  · exact (encode_lt_encode_iff_lt first plain.1 otherPlain.1).mpr less
  · exact (encode_lt_encode_iff_lt first plain.2 otherPlain.2).mpr less

end ObjectId

namespace Links

/-- A listing of plain sorts is in the order of text forms, across its buckets. -/
theorem IsListing.pairwise_flatten {links : Links} {member : ObjectId → Prop}
    (listing : links.IsListing member) (plain : ∀ id ∈ links.flatten, id.groupKind.Plain) :
    links.flatten.Pairwise fun left right => left.encode < right.encode := by
  apply List.pairwise_flatMap.mpr
  refine ⟨listing.sorted, listing.ordered.imp_of_mem ?_⟩
  intro bucket later inside laterInside before left leftInside right rightInside
  apply encode_lt_encode_of_groupKind
  · exact plain left (mem_flatten_iff.mpr ⟨bucket, inside, leftInside⟩)
  · exact plain right (mem_flatten_iff.mpr ⟨later, laterInside, rightInside⟩)
  · rwa [listing.keyed bucket inside left leftInside,
      listing.keyed later laterInside right rightInside]

/-- The bucket with a key has the objects of that sort. -/
theorem IsListing.mem_flatten_narrow_iff {links : Links} {member : ObjectId → Prop}
    (listing : links.IsListing member) (key : GroupKind) (id : ObjectId) :
    id ∈ (links.narrow key).flatten ↔ member id ∧ id.groupKind = key := by
  rw [← listing.mem_iff, mem_flatten_iff, mem_flatten_iff]
  constructor
  · rintro ⟨bucket, kept, inside⟩
    obtain ⟨occurs, same⟩ := List.mem_filter.mp kept
    have sort := listing.keyed bucket occurs id inside
    exact ⟨⟨bucket, occurs, inside⟩, sort.trans (of_decide_eq_true same)⟩
  · rintro ⟨⟨bucket, occurs, inside⟩, sort⟩
    have same : bucket.key = key := (listing.keyed bucket occurs id inside).symm.trans sort
    exact ⟨bucket, List.mem_filter.mpr ⟨occurs, decide_eq_true same⟩, inside⟩

end Links

/-! ## Sorting and taking -/

/-- What is in order is not moved. -/
theorem sortByText_eq_self {ids : List ObjectId}
    (sorted : ids.Pairwise fun left right => left.encode ≤ right.encode) :
    sortByText ids = ids :=
  List.mergeSort_of_pairwise (sorted.imp decide_eq_true)

/-- Lists are equal if each beginning of one is the beginning of the other in some order. -/
theorem eq_of_take_perm {α : Type} {first second : List α}
    (perm : ∀ limit, (first.take limit).Perm (second.take limit)) : first = second := by
  induction first generalizing second with
  | nil =>
      have vacant := perm second.length
      rw [List.take_nil, List.take_length] at vacant
      exact vacant.nil_eq
  | cons head first ih =>
      cases second with
      | nil => exact absurd (perm 1) (by simp)
      | cons other second =>
          obtain rfl : head = other := by simpa using perm 1
          apply congrArg (List.cons head)
          apply ih
          intro limit
          simpa using perm (limit + 1)

/-- The beginnings of a list are the beginnings of the sorted list exactly if the list is
sorted. -/
theorem sortByText_take_iff (ids : List ObjectId) :
    (∀ limit, sortByText (ids.take limit) = (sortByText ids).take limit) ↔
      ids.Pairwise fun left right => left.encode ≤ right.encode := by
  constructor
  · intro pages
    have same : ids = sortByText ids := by
      apply eq_of_take_perm
      intro limit
      rw [← pages limit]
      exact (sortByText_perm _).symm
    rw [same]
    exact pairwise_sortByText ids
  · intro sorted limit
    rw [sortByText_eq_self sorted, sortByText_eq_self (sorted.sublist (List.take_sublist _ _))]

-- One group comes first as a key, the other in text forms.
example :
    compare (⟨"a", "Pod"⟩ : GroupKind) ⟨"a!", "Pod"⟩ = .lt ∧
    ¬∀ limit, sortByText ([⟨"a", "Pod", "", ""⟩, ⟨"a!", "Pod", "", ""⟩].take limit) =
      (sortByText [⟨"a", "Pod", "", ""⟩, ⟨"a!", "Pod", "", ""⟩]).take limit := by
  rw [sortByText_take_iff]
  decide

/-! ## What is linked -/

/-- Nothing is linked outside a list that holds the object and all neighbours of what it
holds. -/
theorem Graph.mem_of_mem_linked {graph : Graph} {id : ObjectId} {label : Label}
    {ids : List ObjectId} (start : id ∈ ids)
    (closedUnit : ∀ member ∈ ids,
      ∀ next ∈ (graph.neighbours member graph.settings.expansion).toList, next ∈ ids)
    (closed : ∀ member ∈ ids, ∀ next ∈ (graph.neighbours member label).toList, next ∈ ids)
    {x : ObjectId} (linked : x ∈ graph.linked id label) : x ≠ id ∧ x ∈ ids := by
  obtain ⟨other, middle, first, second⟩ := (graph.mem_linked_iff id label x).mp linked
  have unit : middle ∈ graph.edges.reach [id] graph.settings.expansion :=
    (Adjacency.mem_reach_iff ..).mpr ⟨id, List.mem_singleton_self id, first⟩
  have reached : x ∈ graph.edges.reach [middle] label :=
    (Adjacency.mem_reach_iff ..).mpr ⟨middle, List.mem_singleton_self middle, second⟩
  have inside : middle ∈ ids :=
    Adjacency.mem_of_mem_reach (List.forall_mem_singleton.mpr start) closedUnit unit
  exact ⟨other,
    Adjacency.mem_of_mem_reach (List.forall_mem_singleton.mpr inside) closed reached⟩

namespace Query

variable {query : Query} {graph : Graph} {id : ObjectId}

/-! ## Lists -/

theorem unlimited_listed_eq {full : Links}
    (answered : query.unlimited.grouped graph id = .ok full) :
    query.unlimited.listed graph id = .ok (sortByText full.flatten) := by
  rw [listed, answered]
  rfl

theorem listed_set_limit_eq {full : Links}
    (answered : query.unlimited.grouped graph id = .ok full) (limit : Nat) :
    (query.set (.limit limit)).listed graph id = .ok (sortByText (full.flatten.take limit)) := by
  rw [listed, grouped_set_limit, answered, ← Links.flatten_limit]
  rfl

/-- Without a limit, a list has what is linked under the label, and with a kind only what is
of that sort. -/
theorem mem_listed_iff {label : Label} (labelled : query.label = some label)
    (kinded : ¬Unkinded query.group query.kind) {ids : List ObjectId}
    (answered : query.unlimited.listed graph id = .ok ids) (x : ObjectId) :
    x ∈ ids ↔ x ∈ graph.linked id label ∧
      ∀ kind, query.kind = some kind → x.groupKind = ⟨query.group.getD "", kind⟩ := by
  obtain ⟨links, looked, listing⟩ := graph.exists_links id label
  have planned : query.unlimited.plan =
      .ok (label, query.kind.map fun kind => ⟨query.group.getD "", kind⟩) :=
    @plan_of_kinded query.unlimited label labelled kinded
  have found : query.unlimited.grouped graph id = .ok (query.unlimited.select
      (query.kind.map fun kind => ⟨query.group.getD "", kind⟩) links) := by
    rw [grouped, planned]
    simp only [bind, Except.bind, looked]
    rfl
  obtain rfl := Except.ok.inj (answered.symm.trans (unlimited_listed_eq found))
  rw [(sortByText_perm _).mem_iff]
  cases asked : query.kind with
  | none => simp [select, unlimited, listing.mem_iff]
  | some kind => simp [select, unlimited, listing.mem_flatten_narrow_iff]

/-! ## Pages of a list -/

/-- A query answers with the pages of one list. -/
structure Paged (query : Query) (graph : Graph) (id : ObjectId) (ids : List ObjectId) : Prop where
  /-- A limit leaves the beginning of the list. -/
  page : ∀ limit, (query.set (.limit limit)).listed graph id = .ok (ids.take limit)
  /-- A lower limit leaves the beginning of what a higher one leaves. -/
  nested : ∀ lower higher, lower ≤ higher → ∃ shorter longer,
    (query.set (.limit lower)).listed graph id = .ok shorter ∧
      (query.set (.limit higher)).listed graph id = .ok longer ∧ shorter <+: longer

theorem paged_of_page {ids : List ObjectId}
    (page : ∀ limit, (query.set (.limit limit)).listed graph id = .ok (ids.take limit)) :
    Paged query graph id ids where
  page := page
  nested lower higher le :=
    ⟨ids.take lower, ids.take higher, page lower, page higher, List.take_prefix_take_left le⟩

/-- A query answers with the pages of a list exactly if its buckets, one after another, are in
the order of text forms. -/
theorem paged_iff_sorted {full : Links} (answered : query.unlimited.grouped graph id = .ok full) :
    Paged query graph id (sortByText full.flatten) ↔
      full.flatten.Pairwise fun left right => left.encode ≤ right.encode := by
  rw [← sortByText_take_iff]
  constructor
  · intro paged limit
    exact Except.ok.inj ((listed_set_limit_eq answered limit).symm.trans (paged.page limit))
  · intro pages
    apply paged_of_page
    intro limit
    rw [listed_set_limit_eq answered, pages limit]

/-- A query with a label, and with a kind if it has a group, answers without a limit with
what is linked, of the sort that it asks for, in the order of text forms.  If all groups and
kinds in this answer are plain, it answers under every limit with the beginning of it. -/
theorem paged_of_plain (graph : Graph) (id : ObjectId) {query : Query} {label : Label}
    (labelled : query.label = some label) (kinded : ¬Unkinded query.group query.kind) :
    ∃ ids, query.unlimited.listed graph id = .ok ids ∧
      (∀ x, x ∈ ids ↔ x ∈ graph.linked id label ∧
        ∀ kind, query.kind = some kind → x.groupKind = ⟨query.group.getD "", kind⟩) ∧
      (ids.Pairwise fun left right => left.encode < right.encode) ∧
      ((∀ x ∈ ids, x.groupKind.Plain) → Paged query graph id ids) := by
  have given : query.label ≠ none := by simp [labelled]
  obtain ⟨full, answered, listing⟩ := exists_unlimited_grouped graph id given kinded
  have found := unlimited_listed_eq answered
  refine ⟨sortByText full.flatten, found, mem_listed_iff labelled kinded found,
    pairwise_sortByText_of_nodup listing.nodup, ?_⟩
  intro plain
  have plainFull : ∀ x ∈ full.flatten, x.groupKind.Plain :=
    fun x member => plain x ((sortByText_perm _).mem_iff.mpr member)
  apply (paged_iff_sorted answered).mpr
  exact (listing.pairwise_flatten plainFull).imp fun less => Std.le_of_lt less

/-! ## The storage of a deployment -/

/-- The storage of a deployment is the volume that it reports itself, and the pod that it is
joined with on the way. -/
theorem mem_linked_twoLabels_iff (x : ObjectId) :
    x ∈ (Graph.run (.fresh {}) Example.twoLabels).linked Example.web .storage ↔
      x ∈ [Example.disk, Example.pod] := by
  constructor
  · intro linked
    have inside : x ≠ Example.web ∧ x ∈ [Example.web, Example.disk, Example.pod] :=
      Graph.mem_of_mem_linked (by decide) (by decide +kernel) (by decide +kernel) linked
    rw [List.mem_cons] at inside
    exact inside.2.resolve_left inside.1
  · have offshoot : Example.pod ∈
        (Graph.run (.fresh {}) Example.twoLabels).neighbours Example.web .offshoot := by
      decide +kernel
    have storage : Example.disk ∈
        (Graph.run (.fresh {}) Example.twoLabels).neighbours Example.web .storage := by
      decide +kernel
    intro member
    rw [Graph.mem_linked_iff]
    rcases List.mem_pair.mp member with rfl | rfl
    · exact ⟨by decide, Example.web, .refl, .single storage⟩
    · exact ⟨by decide, Example.pod, .single offshoot, .refl⟩

/-- The volume and the pod of a deployment, page by page. -/
theorem disk_and_pod_in_pages :
    (Query.mk (some .storage) none none none).label = some .storage ∧ ¬Unkinded none none ∧
    ∃ ids,
      (Query.mk (some .storage) none none none).listed
          (Graph.run (.fresh {}) Example.twoLabels) Example.web = .ok ids ∧
      (∀ x, x ∈ ids ↔ x ∈ [Example.disk, Example.pod]) ∧
      (ids.Pairwise fun left right => left.encode < right.encode) ∧
      (∀ x ∈ ids, x.groupKind.Plain) ∧
      Paged { label := some .storage } (Graph.run (.fresh {}) Example.twoLabels) Example.web
        ids := by
  have kinded : ¬Unkinded none none := by simp [Unkinded]
  obtain ⟨ids, answered, mem_iff, sorted, paged⟩ :=
    @paged_of_plain (Graph.run (.fresh {}) Example.twoLabels) Example.web
      { label := some .storage } .storage rfl kinded
  have found : ∀ x, x ∈ ids ↔ x ∈ [Example.disk, Example.pod] := by
    intro x
    rw [mem_iff, mem_linked_twoLabels_iff]
    simp
  have plain : ∀ x ∈ ids, x.groupKind.Plain := by
    have both : ∀ x ∈ [Example.disk, Example.pod], x.groupKind.Plain := by decide
    exact fun x member => both x ((found x).mp member)
  exact ⟨rfl, kinded, ids, answered, found, sorted, plain, paged plain⟩

end Query

end InventoryGraph
