import InventoryGraph.Graph
import InventoryGraph.Proofs.Reach
import InventoryGraph.Proofs.TextForm

/-!
# What links hold

The links of an object under a label are the objects that a path along the
expansion label and then a path along the label lead to, the object itself left
out.  They are listed without loss or repetition: each in the bucket of its sort,
the buckets in the order of their keys, and the members of a bucket in the order
of their text forms.

Text forms are distinct, so a sorted list is determined by its members and the
order in which objects are put in buckets does not show (`ofIds_eq_of_perm`).
Looking up links never fails, since every id is read back from its text form.
-/

namespace InventoryGraph

open ObjectId

/-! ## The order of text forms -/

theorem sortByText_perm (ids : List ObjectId) : (sortByText ids).Perm ids :=
  List.mergeSort_perm ids _

theorem pairwise_sortByText (ids : List ObjectId) :
    (sortByText ids).Pairwise fun left right => left.encode ≤ right.encode := by
  have trans : ∀ left middle right : ObjectId,
      decide (left.encode ≤ middle.encode) = true →
        decide (middle.encode ≤ right.encode) = true →
          decide (left.encode ≤ right.encode) = true := by
    intro left middle right first second
    exact decide_eq_true
      (String.le_trans (of_decide_eq_true first) (of_decide_eq_true second))
  have total : ∀ left right : ObjectId,
      (decide (left.encode ≤ right.encode) || decide (right.encode ≤ left.encode)) = true := by
    intro left right
    rw [Bool.or_eq_true, decide_eq_true_eq, decide_eq_true_eq]
    exact String.le_total left.encode right.encode
  exact (List.pairwise_mergeSort trans total ids).imp of_decide_eq_true

/-- Distinct objects stand in strict order. -/
theorem pairwise_sortByText_of_nodup {ids : List ObjectId} (nodup : ids.Nodup) :
    (sortByText ids).Pairwise fun left right => left.encode < right.encode := by
  have distinct : (sortByText ids).Nodup := (sortByText_perm ids).nodup_iff.mpr nodup
  apply ((pairwise_sortByText ids).and distinct).imp
  rintro left right ⟨le, different⟩
  apply String.not_le.mp
  intro ge
  exact different (encode_inj.mp (String.le_antisymm le ge))

/-- The order in which objects are listed before sorting does not show. -/
theorem sortByText_eq_of_perm {first second : List ObjectId} (perm : first.Perm second) :
    sortByText first = sortByText second := by
  have antisymm : ∀ left right : ObjectId, left ∈ sortByText first →
      right ∈ sortByText second → left.encode ≤ right.encode →
        right.encode ≤ left.encode → left = right := by
    intro left right _ _ le ge
    exact encode_inj.mp (String.le_antisymm le ge)
  have same : (sortByText first).Perm (sortByText second) :=
    (sortByText_perm first).trans (perm.trans (sortByText_perm second).symm)
  exact same.eq_of_pairwise antisymm (pairwise_sortByText first)
    (pairwise_sortByText second)

namespace Links

/-! ## Buckets -/

theorem reread_eq_ok (ids : List ObjectId) : reread ids = .ok ids := by
  induction ids with
  | nil => rfl
  | cons id rest ih =>
      simp only [reread, decode_encode, ih, bind, Except.bind]
      rfl

theorem ofIds_eq_ok (ids : List ObjectId) :
    ofIds ids = .ok ((keys ids).map (bucket ids)) := by
  simp only [ofIds, reread_eq_ok, bind, Except.bind]
  rfl

theorem mem_keys_iff {ids : List ObjectId} {key : GroupKind} :
    key ∈ keys ids ↔ ∃ id ∈ ids, id.groupKind = key := by
  simp [keys, Std.ExtTreeSet.mem_toList, Std.ExtTreeSet.mem_ofList]

theorem mem_bucket_iff {ids : List ObjectId} {key : GroupKind} {id : ObjectId} :
    id ∈ (bucket ids key).members ↔ id ∈ ids ∧ id.groupKind = key := by
  simp [bucket, (sortByText_perm _).mem_iff]

theorem ofIds_eq_of_perm {first second : List ObjectId} (perm : first.Perm second) :
    ofIds first = ofIds second := by
  have keys_eq : keys first = keys second := by
    apply congrArg Std.ExtTreeSet.toList
    apply Std.ExtTreeSet.ext_mem
    intro key
    simp [Std.ExtTreeSet.mem_ofList, perm.mem_iff]
  have bucket_eq : bucket first = bucket second := by
    funext key
    exact congrArg (Bucket.mk key) (sortByText_eq_of_perm (perm.filter _))
  rw [ofIds_eq_ok, ofIds_eq_ok, keys_eq, bucket_eq]

/-- Links list exactly the objects with a property. -/
structure IsListing (links : Links) (member : ObjectId → Prop) : Prop where
  /-- Nothing is lost and nothing is added. -/
  mem_iff : ∀ id, id ∈ links.flatten ↔ member id
  /-- No object occurs twice, in one bucket or in two. -/
  nodup : links.flatten.Nodup
  /-- An object lies in the bucket of its sort. -/
  keyed : ∀ bucket ∈ links, ∀ id ∈ bucket.members, id.groupKind = bucket.key
  nonempty : ∀ bucket ∈ links, bucket.members ≠ []
  /-- Each bucket is in the order of text forms. -/
  sorted : ∀ bucket ∈ links,
    bucket.members.Pairwise fun left right => left.encode < right.encode
  /-- The buckets are in the order of their keys, so no two have the same key. -/
  ordered : links.Pairwise fun left right => compare left.key right.key = .lt

theorem mem_flatten_iff {links : Links} {id : ObjectId} :
    id ∈ links.flatten ↔ ∃ bucket ∈ links, id ∈ bucket.members :=
  List.mem_flatMap

theorem pairwise_keys (ids : List ObjectId) :
    (keys ids).Pairwise fun left right => compare left right = .lt :=
  Std.ExtTreeSet.ordered_toList

/-- Distinct objects are listed by their buckets. -/
theorem isListing_buckets {ids : List ObjectId} (nodup : ids.Nodup) :
    IsListing ((keys ids).map (bucket ids)) (· ∈ ids) := by
  constructor
  · intro id
    constructor
    · intro member
      rcases mem_flatten_iff.mp member with ⟨part, member, inside⟩
      rcases List.mem_map.mp member with ⟨key, _, rfl⟩
      exact (mem_bucket_iff.mp inside).1
    · intro member
      have occurs : id.groupKind ∈ keys ids := mem_keys_iff.mpr ⟨id, member, rfl⟩
      exact mem_flatten_iff.mpr ⟨bucket ids id.groupKind, List.mem_map_of_mem occurs,
        mem_bucket_iff.mpr ⟨member, rfl⟩⟩
  · apply List.pairwise_flatMap.mpr
    constructor
    · rw [List.forall_mem_map]
      intro key _
      exact (sortByText_perm _).nodup_iff.mpr (nodup.filter _)
    · -- An object of two buckets would be of two sorts.
      rw [List.pairwise_map]
      apply (pairwise_keys ids).imp
      rintro left right before id member _ other rfl
      rw [← (mem_bucket_iff.mp member).2, ← (mem_bucket_iff.mp other).2] at before
      simp at before
  · rw [List.forall_mem_map]
    exact fun key _ id inside => (mem_bucket_iff.mp inside).2
  · rw [List.forall_mem_map]
    intro key occurs vacant
    rcases mem_keys_iff.mp occurs with ⟨id, member, sort⟩
    have inside : id ∈ (bucket ids key).members := mem_bucket_iff.mpr ⟨member, sort⟩
    simp [vacant] at inside
  · rw [List.forall_mem_map]
    exact fun key _ => pairwise_sortByText_of_nodup (nodup.filter _)
  · rw [List.pairwise_map]
    exact pairwise_keys ids

end Links

namespace Graph

/-! ## Looking up links -/

variable (graph : Graph)

/-- What is linked lies at the end of a path through the unit.  Along the
expansion label the second path only continues the first one. -/
theorem mem_linked_iff (id : ObjectId) (label : Label) (x : ObjectId) :
    x ∈ graph.linked id label ↔
      x ≠ id ∧ ∃ middle, graph.edges.Connected graph.settings.expansion id middle ∧
        graph.edges.Connected label middle x := by
  have mem_unit : ∀ middle, middle ∈ graph.unit id ↔
      graph.edges.Connected graph.settings.expansion id middle := by
    intro middle
    simp [unit, reach, Adjacency.mem_reach_iff]
  rw [linked, Std.ExtTreeSet.mem_erase, Ne, Std.LawfulEqOrd.compare_eq_iff_eq,
    eq_comm (a := id)]
  apply and_congr_right
  intro _
  split
  · rename_i same
    subst same
    rw [mem_unit]
    constructor
    · exact fun path => ⟨x, path, .refl⟩
    · rintro ⟨middle, first, second⟩
      exact first.trans second
  · simp only [reach, Adjacency.mem_reach_iff, Std.ExtTreeSet.mem_toList, mem_unit]

theorem links_eq_ok_iff {id : ObjectId} {label : Label} {links : Links} :
    graph.links id label = .ok links ↔
      Links.ofIds (graph.linked id label).toList = .ok links :=
  Except.mapError_eq_ok_iff

/-- Looking up links succeeds, with a listing of what is linked. -/
theorem exists_links (id : ObjectId) (label : Label) :
    ∃ links, graph.links id label = .ok links ∧
      links.IsListing (· ∈ graph.linked id label) := by
  have listing := Links.isListing_buckets (graph.linked id label).nodup_toList
  simp only [Std.ExtTreeSet.mem_toList] at listing
  exact ⟨_, graph.links_eq_ok_iff.mpr (Links.ofIds_eq_ok _), listing⟩

theorem linksOfText_encode (id : ObjectId) (label : Label) :
    graph.linksOfText id.encode label = graph.links id label := by
  rw [linksOfText, decode_encode]
  rfl

/-- Links are looked up for exactly the text forms of ids. -/
theorem exists_linksOfText_iff (text : String) (label : Label) :
    (∃ links, graph.linksOfText text label = .ok links) ↔
      ∃ id : ObjectId, text = id.encode := by
  constructor
  · rintro ⟨links, found⟩
    rcases Except.bind_eq_ok_iff.mp found with ⟨id, read, _⟩
    exact ⟨id, decode_eq_ok_iff.mp (Except.mapError_eq_ok_iff.mp read)⟩
  · rintro ⟨id, rfl⟩
    rcases graph.exists_links id label with ⟨links, found, _⟩
    exact ⟨links, (graph.linksOfText_encode id label).trans found⟩

/-- Looking up links succeeds for every object and lists exactly what a path
along the expansion label and then a path along the label lead to, under the
expansion label as under any other.  No order in which the same objects are put
in buckets makes a difference.  A text stands for an object exactly when it is
the text form of one, and then it has the links of that object. -/
theorem links_list_exactly_linked (id : ObjectId) (label : Label) :
    (∃ links, graph.links id label = .ok links ∧
      links.IsListing (fun x => x ≠ id ∧ ∃ middle,
        graph.edges.Connected graph.settings.expansion id middle ∧
          graph.edges.Connected label middle x) ∧
      ∀ ids : List ObjectId, ids.Perm (graph.linked id label).toList →
        Links.ofIds ids = .ok links) ∧
    (∀ text, (∃ links, graph.linksOfText text label = .ok links) ↔
      ∃ other : ObjectId, text = other.encode) ∧
    graph.linksOfText id.encode label = graph.links id label := by
  rcases graph.exists_links id label with ⟨links, found, listing⟩
  simp only [mem_linked_iff] at listing
  have anyOrder : ∀ ids : List ObjectId, ids.Perm (graph.linked id label).toList →
      Links.ofIds ids = .ok links := by
    intro ids perm
    rw [Links.ofIds_eq_of_perm perm]
    exact graph.links_eq_ok_iff.mp found
  exact ⟨⟨links, found, listing, anyOrder⟩,
    fun text => graph.exists_linksOfText_iff text label, graph.linksOfText_encode id label⟩

end Graph

end InventoryGraph
