import InventoryGraph.Adjacency.Parting

/-!
# Steps under one label

Joining and parting under a label, and replacing entries of it, change entries of this
label only (`Under`).  Rows are shared by all labels, and a step can drop a row or make
it anew.  Still steps under different labels do not get in each other's way: each leaves
the entries that the other one sees (`Under.find?_eq`), and what is stored in the end
does not depend on their order (`Under.commute`).
-/

namespace InventoryGraph.Adjacency

/-- A step is made of changes of entries of one label. -/
inductive Under (label : Label) : (Adjacency → Adjacency) → Prop
  /-- No change at all. -/
  | nothing : Under label fun edges => edges
  /-- One more change. -/
  | altered {step : Adjacency → Adjacency} (under : Under label step) (id : ObjectId)
      (change : Option IdSet → Option IdSet) :
      Under label fun edges => (step edges).alter id label change

namespace Under

variable {label otherLabel : Label} {first second : Adjacency → Adjacency}

/-! ## Steps of reports -/

/-- A step after another one. -/
theorem comp (second_under : Under label second) (first_under : Under label first) :
    Under label fun edges => second (first edges) := by
  induction second_under with
  | nothing => exact first_under
  | altered _ id change ih => exact ih.altered id change

theorem link (label : Label) (left right : ObjectId) :
    Under label fun edges => edges.link left label right :=
  (nothing.altered left _).altered right _

theorem unlink (prune : Bool) (label : Label) (left right : ObjectId) :
    Under label fun edges => edges.unlink prune left label right :=
  (nothing.altered left _).altered right _

/-- A step for each of some items. -/
theorem foldl {α : Type} {step : Adjacency → α → Adjacency}
    (under : ∀ item, Under label fun edges => step edges item) (items : List α) :
    Under label fun edges => items.foldl step edges := by
  induction items with
  | nil => exact nothing
  | cons item rest ih => exact ih.comp (under item)

theorem linkAll (label : Label) (id : ObjectId) (targets : IdSet) :
    Under label fun edges => edges.linkAll id label targets := by
  simp only [Adjacency.linkAll, Std.ExtTreeSet.foldl_eq_foldl_toList]
  exact foldl (fun target => link label id target) targets.toList

theorem unlinkAll (prune : Bool) (label : Label) (id : ObjectId) (targets : IdSet) :
    Under label fun edges => edges.unlinkAll prune id label targets := by
  simp only [Adjacency.unlinkAll, Std.ExtTreeSet.foldl_eq_foldl_toList]
  exact foldl (fun target => unlink prune label id target) targets.toList

theorem assign (label : Label) (id : ObjectId) (targets : IdSet) :
    Under label fun edges => edges.assign id label targets :=
  nothing.altered id _

/-! ## Other labels -/

/-- A step under one label leaves the entries of the others. -/
theorem find?_eq (under : Under label first) (different : label ≠ otherLabel)
    (edges : Adjacency) (id : ObjectId) :
    (first edges).find? id otherLabel = edges.find? id otherLabel := by
  induction under with
  | nothing => rfl
  | altered _ otherId change ih =>
      rw [find?_alter, if_neg fun same => different same.2, ih]

theorem neighbours_eq (under : Under label first) (different : label ≠ otherLabel)
    (edges : Adjacency) (id : ObjectId) :
    (first edges).neighbours id otherLabel = edges.neighbours id otherLabel := by
  rw [neighbours, neighbours, under.find?_eq different]

/-- A step under one label commutes with any change of an entry of another. -/
theorem commute_alter (under : Under label first) (different : label ≠ otherLabel)
    (id : ObjectId) (change : Option IdSet → Option IdSet) :
    Function.Commute first fun edges => edges.alter id otherLabel change := by
  induction under with
  | nothing => exact fun _ => rfl
  | altered _ otherId otherChange ih =>
      have last : Function.Commute (fun edges => edges.alter otherId label otherChange)
          fun edges : Adjacency => edges.alter id otherLabel change :=
        fun edges => alter_comm edges fun same => absurd same.symm different
      exact last.comp_left ih

/-- Steps under different labels commute. -/
theorem commute (first_under : Under label first) (second_under : Under otherLabel second)
    (different : label ≠ otherLabel) : Function.Commute first second := by
  induction second_under with
  | nothing => exact fun _ => rfl
  | altered _ id change ih => exact (first_under.commute_alter different id change).comp_right ih

end Under

end InventoryGraph.Adjacency
