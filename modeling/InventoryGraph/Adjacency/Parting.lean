import InventoryGraph.Adjacency.Entry
import Mathlib.Logic.Function.Conjugate

/-!
# Parting commutes

Taking objects out of entries, whether or not entries left empty are dropped, gives
the same rows and entries in any order: entries do not depend on each other
(`alter_comm`), and within one entry it does not matter which object goes first
(`detach_comm`).  So it is with all that is made of such steps, up to parting several
objects from their sets (`commute_unlinkAll`).
-/

namespace InventoryGraph

/-- An object is taken out of a set before or after another. -/
theorem IdSet.erase_comm (ids : IdSet) (first second : ObjectId) :
    (ids.erase first).erase second = (ids.erase second).erase first := by
  apply Std.ExtTreeSet.ext_mem
  intro x
  simp only [Std.ExtTreeSet.mem_erase]
  exact and_left_comm

namespace Adjacency

/-! ## Entries -/

/-- A row is stored only with entries. -/
theorem getElem?_rows_alter (edges : Adjacency) (id : ObjectId) (label : Label)
    (change : Option IdSet → Option IdSet) (other : ObjectId) :
    (edges.alter id label change).rows[other]? =
      if id = other then
        if ((edges.row id).alter label change).isEmpty then none
        else some ((edges.row id).alter label change)
      else
        edges.rows[other]? := by
  simp only [alter, row, Std.ExtTreeMap.getElem?_alter, Std.LawfulEqOrd.compare_eq_iff_eq]
  congr

/-- Changes of entries commute, on the same entry if they commute there. -/
theorem alter_comm (edges : Adjacency) {id otherId : ObjectId} {label otherLabel : Label}
    {change otherChange : Option IdSet → Option IdSet}
    (comm : label = otherLabel →
      ∀ entry, change (otherChange entry) = otherChange (change entry)) :
    (edges.alter id label change).alter otherId otherLabel otherChange =
      (edges.alter otherId otherLabel otherChange).alter id label change := by
  have row_comm : ∀ row : Row,
      (row.alter label change).alter otherLabel otherChange =
        (row.alter otherLabel otherChange).alter label change := by
    intro row
    apply Std.ExtTreeMap.ext_getElem?
    intro x
    simp only [Std.ExtTreeMap.getElem?_alter, Std.LawfulEqOrd.compare_eq_iff_eq]
    grind
  apply Adjacency.ext
  apply Std.ExtTreeMap.ext_getElem?
  intro x
  simp only [getElem?_rows_alter, row_alter]
  by_cases same : id = otherId
  · subst otherId
    simp only [if_true, row_comm]
    split <;> rfl
  · simp only [if_neg same, if_neg (Ne.symm same)]
    by_cases first : id = x
    · subst x
      simp only [if_true, if_neg (Ne.symm same)]
    · simp only [if_neg first]

/-! ## Pairs -/

section Parting

variable (prune : Bool) (id : ObjectId) (label : Label) (otherId : ObjectId)
  (otherLabel : Label)

theorem commute_detach (target otherTarget : ObjectId) :
    Function.Commute (fun edges => detach prune edges id label target)
      (fun edges => detach prune edges otherId otherLabel otherTarget) := by
  intro edges
  apply alter_comm
  rintro - (_ | entry)
  · rfl
  · cases prune with
    | false => simp [IdSet.erase_comm entry target]
    | true =>
        -- An entry that one of the two steps empties is dropped in either order.
        by_cases first : entry.erase target = ∅
        · by_cases second : entry.erase otherTarget = ∅
          · simp [first, second]
          · simp [first, second, IdSet.erase_comm entry otherTarget]
        · by_cases second : entry.erase otherTarget = ∅
          · simp [first, second, IdSet.erase_comm entry target]
          · simp [first, second, IdSet.erase_comm entry target]

theorem commute_unlink (target otherTarget : ObjectId) :
    Function.Commute (fun edges => unlink prune edges id label target)
      (fun edges => unlink prune edges otherId otherLabel otherTarget) := by
  have there : Function.Commute (fun edges => detach prune edges id label target)
      (fun edges => unlink prune edges otherId otherLabel otherTarget) :=
    (commute_detach prune id label otherTarget otherLabel target otherId).comp_right
      (commute_detach prune id label otherId otherLabel target otherTarget)
  have back : Function.Commute (fun edges => detach prune edges target label id)
      (fun edges => unlink prune edges otherId otherLabel otherTarget) :=
    (commute_detach prune target label otherTarget otherLabel id otherId).comp_right
      (commute_detach prune target label otherId otherLabel id otherTarget)
  exact back.comp_left there

/-! ## Sets -/

/-- What commutes with each of some steps commutes with all of them together. -/
theorem commute_foldl {α β : Type} {change : β → β} {step : β → α → β} {items : List α}
    (comm : ∀ item ∈ items, Function.Commute change fun x => step x item) :
    Function.Commute change fun x => items.foldl step x := by
  induction items with
  | nil => exact fun _ => rfl
  | cons item rest ih =>
      rw [List.forall_mem_cons] at comm
      exact (ih comm.2).comp_right comm.1

theorem commute_unlinkAll (targets otherTargets : IdSet) :
    Function.Commute (fun edges => unlinkAll prune edges id label targets)
      (fun edges => unlinkAll prune edges otherId otherLabel otherTargets) := by
  simp only [unlinkAll, Std.ExtTreeSet.foldl_eq_foldl_toList]
  apply commute_foldl
  intro otherTarget _
  apply Function.Commute.symm
  apply commute_foldl
  intro target _
  exact commute_unlink prune otherId otherLabel id label otherTarget target

end Parting

end Adjacency

end InventoryGraph
