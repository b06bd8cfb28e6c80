import InventoryGraph.Proofs.Query
import Mathlib.Data.List.Flatten

/-!
# What a limit leaves of a query

A limit is spent bucket by bucket, in the order of keys.  Each bucket is cut to what is
left of the budget, and buckets that are cut to nothing go.  Here the budget is counted in
integers, which could fall below zero; it never does, since a bucket is never charged for
more than is left (`Spent`, `nonneg_left_of_mem_spend`).

So a query with a limit answers with the first objects of what it answers without one
(`IsPage`), whichever way it is put: in buckets, as one list, as a number, or as the bare
question whether there is anything, which no limit influences (`limit_is_page`).
-/

namespace InventoryGraph

namespace Links

/-! ## Spending a budget -/

/-- What is kept of a bucket, and what is left of the budget behind it. -/
structure Spent where
  kept : Bucket
  left : Int

/-- Cuts one bucket after another to what is left of a budget. -/
def spend (budget : Int) : Links → List Spent
  | [] => []
  | ⟨key, members⟩ :: rest =>
      let kept := members.take budget.toNat
      ⟨⟨key, kept⟩, budget - kept.length⟩ :: spend (budget - kept.length) rest

/-- A bucket is never charged for more than is left. -/
theorem nonneg_left_of_mem_spend {budget : Int} (solvent : 0 ≤ budget) {links : Links}
    {spent : Spent} (member : spent ∈ links.spend budget) : 0 ≤ spent.left := by
  induction links generalizing budget with
  | nil => simp [spend] at member
  | cons bucket rest ih =>
      have next : 0 ≤ budget - (bucket.members.take budget.toNat).length := by
        rw [List.length_take]
        omega
      rcases List.mem_cons.mp member with rfl | later
      · exact next
      · exact ih next later

/-- Limited links are what is kept of each bucket, without the buckets of which nothing
is. -/
theorem limit_eq_filter_spend (budget : Nat) (links : Links) :
    links.limit budget =
      ((links.spend budget).map Spent.kept).filter fun bucket => !bucket.members.isEmpty := by
  induction links generalizing budget with
  | nil => rfl
  | cons bucket rest ih =>
      obtain ⟨key, members⟩ := bucket
      have left : (budget : Int) - (members.take budget).length =
          ((budget - (members.take budget).length : Nat) : Int) := by
        rw [List.length_take]
        omega
      simp only [limit, spend, Int.toNat_natCast, left, List.map_cons, List.filter_cons, ih]
      cases (members.take budget).isEmpty <;> rfl

/-- What is kept of buckets is cut from buckets of the same keys. -/
theorem exists_of_mem_spend {budget : Int} {links : Links} {spent : Spent}
    (member : spent ∈ links.spend budget) :
    ∃ whole ∈ links, whole.key = spent.kept.key ∧ spent.kept.members <+: whole.members := by
  induction links generalizing budget with
  | nil => simp [spend] at member
  | cons bucket rest ih =>
      rcases List.mem_cons.mp member with rfl | later
      · exact ⟨bucket, List.mem_cons_self, rfl, List.take_prefix _ _⟩
      · obtain ⟨whole, inside, cut⟩ := ih later
        exact ⟨whole, List.mem_cons_of_mem bucket inside, cut⟩

theorem map_key_spend (budget : Int) (links : Links) :
    ((links.spend budget).map Spent.kept).map Bucket.key = links.map Bucket.key := by
  induction links generalizing budget with
  | nil => rfl
  | cons bucket rest ih => exact congrArg (List.cons bucket.key) (ih _)

/-! ## Pages -/

theorem exists_of_mem_limit {budget : Nat} {links : Links} {bucket : Bucket}
    (member : bucket ∈ links.limit budget) :
    bucket.members ≠ [] ∧
      ∃ whole ∈ links, whole.key = bucket.key ∧ bucket.members <+: whole.members := by
  rw [limit_eq_filter_spend, List.mem_filter] at member
  obtain ⟨spent, inside, rfl⟩ := List.mem_map.mp member.1
  exact ⟨by simpa using member.2, exists_of_mem_spend inside⟩

/-- Limited links list the first objects. -/
theorem IsListing.limit {links : Links} {member : ObjectId → Prop}
    (listing : links.IsListing member) (budget : Nat) :
    (links.limit budget).IsListing (· ∈ links.flatten.take budget) where
  mem_iff id := by rw [flatten_limit]
  nodup := by
    rw [flatten_limit]
    exact listing.nodup.sublist (List.take_sublist _ _)
  keyed bucket inside id kept := by
    obtain ⟨_, whole, member, key, cut⟩ := exists_of_mem_limit inside
    exact (listing.keyed whole member id (cut.subset kept)).trans key
  nonempty bucket inside := (exists_of_mem_limit inside).1
  sorted bucket inside := by
    obtain ⟨_, whole, member, _, cut⟩ := exists_of_mem_limit inside
    exact (listing.sorted whole member).sublist cut.sublist
  ordered := by
    have keys : (links.map Bucket.key).Pairwise fun left right => compare left right = .lt :=
      List.pairwise_map.mpr listing.ordered
    rw [← map_key_spend budget, List.pairwise_map] at keys
    rw [limit_eq_filter_spend]
    exact keys.filter _

/-- Some of the buckets of a listing list what they hold. -/
theorem IsListing.sublist {links part : Links} {member : ObjectId → Prop}
    (listing : links.IsListing member) (some_buckets : part.Sublist links) :
    part.IsListing (· ∈ part.flatten) where
  mem_iff _ := Iff.rfl
  nodup := listing.nodup.sublist (some_buckets.flatMap _)
  keyed bucket inside := listing.keyed bucket (some_buckets.subset inside)
  nonempty bucket inside := listing.nonempty bucket (some_buckets.subset inside)
  sorted bucket inside := listing.sorted bucket (some_buckets.subset inside)
  ordered := listing.ordered.sublist some_buckets

/-- Links are the first objects of others, as many as a limit allows. -/
structure IsPage (limit : Nat) (full page : Links) : Prop where
  flatten_eq : page.flatten = full.flatten.take limit
  /-- Each object is in the bucket of its sort, and no bucket is empty. -/
  listing : page.IsListing (· ∈ full.flatten.take limit)
  /-- Each bucket is the beginning of the bucket with its key. -/
  cut : ∀ bucket ∈ page,
    ∃ whole ∈ full, whole.key = bucket.key ∧ bucket.members <+: whole.members
  /-- They are what is kept when the limit is spent. -/
  spent : page =
    ((full.spend limit).map Spent.kept).filter fun bucket => !bucket.members.isEmpty
  /-- No more is spent than there is. -/
  solvent : ∀ spent ∈ full.spend limit, 0 ≤ spent.left

theorem isPage_limit {full : Links} {member : ObjectId → Prop} (listing : full.IsListing member)
    (limit : Nat) : IsPage limit full (full.limit limit) where
  flatten_eq := flatten_limit limit full
  listing := listing.limit limit
  cut _ inside := (exists_of_mem_limit inside).2
  spent := limit_eq_filter_spend limit full
  solvent _ inside := nonneg_left_of_mem_spend (Int.natCast_nonneg limit) inside

end Links

namespace Query

variable {query : Query} {graph : Graph} {id : ObjectId}

/-! ## Queries without a limit -/

/-- The query without its limit. -/
def unlimited (query : Query) : Query :=
  { query with limit := none }

/-- What a query selects are some of the buckets. -/
theorem Selects.sublist {group kind : Option String} {links selected : Links}
    (selects : Selects group kind links selected) : selected.Sublist links := by
  cases kind with
  | none =>
      have all : selected = links := selects
      rw [all]
  | some kind =>
      rcases selects with ⟨bucket, member, _, rfl⟩ | ⟨_, rfl⟩
      · exact List.singleton_sublist.mpr member
      · exact List.nil_sublist links

/-- A limit is applied to the answer without a limit. -/
theorem grouped_set_limit (query : Query) (graph : Graph) (id : ObjectId) (limit : Nat) :
    (query.set (.limit limit)).grouped graph id =
      (query.unlimited.grouped graph id).map (Links.limit limit) := by
  have plan_eq : (query.set (.limit limit)).plan = query.unlimited.plan := rfl
  rw [grouped, grouped, plan_eq]
  cases query.unlimited.plan with
  | error cause => rfl
  | ok planned =>
      simp only [bind, Except.bind]
      cases graph.links id planned.1 <;> rfl

/-- Without a limit, a query that can be carried out answers with a listing. -/
theorem exists_unlimited_grouped (graph : Graph) (id : ObjectId) (labelled : query.label ≠ none)
    (kinded : ¬Unkinded query.group query.kind) :
    ∃ full, query.unlimited.grouped graph id = .ok full ∧ full.IsListing (· ∈ full.flatten) := by
  obtain ⟨label, given⟩ := Option.ne_none_iff_exists'.mp labelled
  have answered : ∃ links selected left, graph.links id label = .ok links ∧
      Selects query.group query.kind links selected ∧ Leaves none selected left ∧
        query.unlimited.grouped graph id = .ok left :=
    @exists_grouped_eq_ok query.unlimited graph id label given kinded
  obtain ⟨links, selected, left, looked, selects, rfl, answered⟩ := answered
  obtain ⟨others, found, listing⟩ := graph.exists_links id label
  have same : links = others := Except.ok.inj (looked.symm.trans found)
  subst same
  exact ⟨left, answered, listing.sublist selects.sublist⟩

/-! ## Limited queries -/

/-- Where a query without its limit answers with `full`, it answers under a limit with a
page of it, in all its forms. -/
structure Limited (query : Query) (graph : Graph) (id : ObjectId) (limit : Nat) (full : Links) :
    Prop where
  /-- In buckets, it answers with the page itself. -/
  grouped : ∃ page, (query.set (.limit limit)).grouped graph id = .ok page ∧
    Links.IsPage limit full page
  /-- As one list, it answers with the objects of the page in the order of text forms, and
  it counts them. -/
  listed : ∃ ids, (query.set (.limit limit)).listed graph id = .ok ids ∧
    ids.Perm (full.flatten.take limit) ∧ ids.Nodup ∧
    (ids.Pairwise fun left right => left.encode < right.encode) ∧
    (query.set (.limit limit)).count graph id = .ok ids.length ∧
    ids.length = min limit full.size

theorem limited_of_unlimited {full : Links}
    (answered : query.unlimited.grouped graph id = .ok full)
    (listing : full.IsListing (· ∈ full.flatten)) (limit : Nat) :
    Limited query graph id limit full := by
  have page := Links.isPage_limit listing limit
  have found : (query.set (.limit limit)).grouped graph id = .ok (full.limit limit) := by
    rw [grouped_set_limit, answered]
    rfl
  have inOrder : (query.set (.limit limit)).listed graph id =
      .ok (sortByText (full.limit limit).flatten) := by
    rw [listed, found]
    rfl
  have perm : (sortByText (full.limit limit).flatten).Perm (full.flatten.take limit) := by
    rw [← page.flatten_eq]
    exact sortByText_perm _
  have nodup : (sortByText (full.limit limit).flatten).Nodup :=
    (sortByText_perm _).nodup_iff.mpr page.listing.nodup
  have counted : (query.set (.limit limit)).count graph id =
      .ok (sortByText (full.limit limit).flatten).length := by
    rw [count, found, (sortByText_perm _).length_eq, ← Links.size_eq_length_flatten]
    rfl
  have length_eq : (sortByText (full.limit limit).flatten).length = min limit full.size := by
    rw [perm.length_eq, List.length_take, Links.size_eq_length_flatten]
  exact ⟨⟨_, found, page⟩, ⟨_, inOrder, perm, nodup,
    pairwise_sortByText_of_nodup page.listing.nodup, counted, length_eq⟩⟩

/-- A query finds something exactly if it answers with something without a limit. -/
theorem holds_eq_of_unlimited {full : Links}
    (answered : query.unlimited.grouped graph id = .ok full)
    (listing : full.IsListing (· ∈ full.flatten)) :
    query.holds graph id = .ok (decide (full ≠ [])) := by
  obtain ⟨ids, _, _, _, _, counted, length_eq⟩ := (limited_of_unlimited answered listing 1).listed
  have positive : 0 < full.size ↔ full ≠ [] := by
    rw [Links.size_eq_length_flatten, List.length_pos_iff]
    constructor
    · rintro occupied rfl
      exact occupied rfl
    · intro occupied vacant
      obtain ⟨bucket, rest, rfl⟩ := List.exists_cons_of_ne_nil occupied
      rw [Links.flatten_cons, List.append_eq_nil_iff] at vacant
      exact listing.nonempty bucket List.mem_cons_self vacant.1
  have same : decide (0 < ids.length) = decide (full ≠ []) := by
    rw [decide_eq_decide, length_eq, ← positive]
    omega
  rw [holds, counted, ← same]
  rfl

/-- A query with a label, and with a kind if it has a group, answers under every limit
with a page of what it answers without one: in buckets, as a list in the order of text
forms, and as a number.  Whether it finds anything does not depend on a limit. -/
theorem limit_is_page (graph : Graph) (id : ObjectId) {query : Query}
    (labelled : query.label ≠ none) (kinded : ¬Unkinded query.group query.kind) :
    ∃ full, query.unlimited.grouped graph id = .ok full ∧
      full.IsListing (· ∈ full.flatten) ∧
      (∀ limit, Limited query graph id limit full) ∧
      ∀ before, { query with limit := before }.holds graph id = .ok (decide (full ≠ [])) := by
  obtain ⟨full, answered, listing⟩ := exists_unlimited_grouped graph id labelled kinded
  exact ⟨full, answered, listing, fun limit => limited_of_unlimited answered listing limit,
    fun _ => holds_eq_of_unlimited answered listing⟩

/-- A query for what a deployment and its pod share storage with, under limits of nothing and
of one object. -/
theorem storage_of_web_page_by_page :
    some Label.storage ≠ none ∧ ¬Unkinded none none ∧
    ∃ full,
      (Query.mk (some .storage) none none none).grouped
          (Graph.run (.fresh {}) Example.twoLabels) Example.web = .ok full ∧
      full.IsListing (· ∈ full.flatten) ∧
      Limited { label := some .storage, limit := some 0 }
        (Graph.run (.fresh {}) Example.twoLabels) Example.web 1 full ∧
      (Query.mk (some .storage) none none (some 0)).holds
          (Graph.run (.fresh {}) Example.twoLabels) Example.web = .ok (decide (full ≠ [])) := by
  have labelled : some Label.storage ≠ none := by simp
  have kinded : ¬Unkinded none none := by simp [Unkinded]
  obtain ⟨full, answered, listing, limited, holds⟩ :=
    @limit_is_page (Graph.run (.fresh {}) Example.twoLabels) Example.web
      { label := some .storage, limit := some 0 } labelled kinded
  exact ⟨labelled, kinded, full, answered, listing, limited 1, holds (some 0)⟩

-- The budget lasts for the first bucket and one object of the second.
example :
    let full : Links :=
      [⟨⟨"", "PersistentVolume"⟩, [Example.disk]⟩,
        ⟨⟨"", "Pod"⟩, [Example.pod, ⟨"", "Pod", "default", "web-2"⟩]⟩,
        ⟨⟨"apps", "Deployment"⟩, [Example.web]⟩]
    (full.spend 2).map Links.Spent.left = [1, 0, 0] ∧
      full.limit 2 =
        [⟨⟨"", "PersistentVolume"⟩, [Example.disk]⟩, ⟨⟨"", "Pod"⟩, [Example.pod]⟩] := by
  decide +kernel

end Query

end InventoryGraph
