import InventoryGraph.Adjacency
import InventoryGraph.Settings

/-!
# Reports

A source reports, label by label, the objects that it is connected to.  What
becomes of a report is its outcome, and a tally sums the outcomes of one call.
-/

namespace InventoryGraph

/-- What a source says about one label: all objects it is connected to. -/
structure Report where
  label : Label
  targets : IdSet
  deriving DecidableEq

/-- Whether a report of `targets` tells nothing new after the last report. -/
def SkipRule.skips (rule : SkipRule) (last : Option IdSet) (targets : IdSet) : Bool :=
  match rule, last with
  | .equality, some last => last = targets
  | .equality, none => targets.isEmpty
  | .subset, some last => last.toList.all fun target => target ∈ targets
  | .subset, none => false

/-- What became of a report. -/
inductive Outcome where
  /-- It told nothing new. -/
  | skipped
  /-- It was applied: how many objects of the last report it leaves out, how
  many it lists, and how many edges were added and removed. -/
  | applied (withdrawn listed added removed : Nat)
  deriving DecidableEq, Repr

/-- The outcomes of a call, summed up. -/
@[ext]
structure Tally where
  changed : Nat := 0
  skipped : Nat := 0
  added : Nat := 0
  removed : Nat := 0
  deriving DecidableEq, Repr

namespace Tally

/-- Counts one more outcome. -/
def count (tally : Tally) : Outcome → Tally
  | .skipped => { tally with skipped := tally.skipped + 1 }
  | .applied _ _ added removed =>
      { tally with
        changed := tally.changed + 1
        added := tally.added + added
        removed := tally.removed + removed }

/-- The sum of some outcomes. -/
def ofOutcomes (outcomes : List Outcome) : Tally :=
  outcomes.foldl count {}

/-- Whether no edge was added or removed. -/
def isNoop (tally : Tally) : Bool :=
  tally.added = 0 && tally.removed = 0

theorem isNoop_iff {tally : Tally} : tally.isNoop ↔ tally.added = 0 ∧ tally.removed = 0 := by
  simp [isNoop]

/-! ## Tallies add up -/

instance : Add Tally where
  add first second :=
    { changed := first.changed + second.changed
      skipped := first.skipped + second.skipped
      added := first.added + second.added
      removed := first.removed + second.removed }

@[simp]
theorem changed_add (first second : Tally) :
    (first + second).changed = first.changed + second.changed :=
  rfl

@[simp]
theorem skipped_add (first second : Tally) :
    (first + second).skipped = first.skipped + second.skipped :=
  rfl

@[simp]
theorem added_add (first second : Tally) :
    (first + second).added = first.added + second.added :=
  rfl

@[simp]
theorem removed_add (first second : Tally) :
    (first + second).removed = first.removed + second.removed :=
  rfl

theorem add_assoc (first second third : Tally) :
    first + second + third = first + (second + third) := by
  ext <;> simp [Nat.add_assoc]

/-- The tally of one outcome. -/
def ofOutcome (outcome : Outcome) : Tally :=
  count {} outcome

theorem count_eq_add (tally : Tally) (outcome : Outcome) :
    tally.count outcome = tally + ofOutcome outcome := by
  cases outcome <;> ext <;> simp [count, ofOutcome]

/-- Counting some outcomes adds their sum. -/
theorem foldl_count (outcomes : List Outcome) (tally : Tally) :
    outcomes.foldl count tally = tally + ofOutcomes outcomes := by
  induction outcomes generalizing tally with
  | nil => rfl
  | cons outcome rest ih =>
      rw [ofOutcomes, List.foldl_cons, List.foldl_cons, ih, ih (count {} outcome),
        count_eq_add, add_assoc]
      rfl

@[simp]
theorem ofOutcomes_cons (outcome : Outcome) (rest : List Outcome) :
    ofOutcomes (outcome :: rest) = ofOutcome outcome + ofOutcomes rest :=
  foldl_count rest (ofOutcome outcome)

end Tally

end InventoryGraph
