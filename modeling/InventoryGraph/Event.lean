import InventoryGraph.Graph
import InventoryGraph.Query

/-!
# Events

What a graph notes about its work.  An event has a level and a text, and a
reader of events chooses the finest level to see.  Events are functions of a
call and its outcome, so they are computed after the fact and the graph itself
stays free of them.
-/

namespace InventoryGraph

/-- How much an event matters, from the most to the least. -/
inductive Level where
  | error
  | warn
  | info
  | debug
  | trace
  deriving DecidableEq, Repr

namespace Level

/-- The place of a level, counted from the most important one. -/
def rank : Level → Nat
  | .error => 1
  | .warn => 2
  | .info => 3
  | .debug => 4
  | .trace => 5

/-- The name of a level in a record. -/
def name : Level → String
  | .error => "ERROR"
  | .warn => "WARN"
  | .info => "INFO"
  | .debug => "DEBUG"
  | .trace => "TRACE"

end Level

/-- The name of a skip rule in a record. -/
def SkipRule.title : SkipRule → String
  | .equality => "Equality"
  | .subset => "Subset"

/-- Something that a graph notes. -/
inductive Event where
  /-- A graph was set up. -/
  | created (settings : Settings)
  /-- A report told nothing new. -/
  | skipped (label : Label) (source : ObjectId)
  /-- A report was compared with the last one. -/
  | compared (label : Label) (source : ObjectId) (withdrawn listed : Nat)
  /-- All reports of a call were dealt with. -/
  | updated (source : ObjectId) (tally : Tally)
  /-- A source was removed. -/
  | removed (source : ObjectId) (edges : Nat)
  /-- Links were looked up. -/
  | lookedUp (id : ObjectId) (label : Label) (objects groups : Nat)
  /-- Links are cut down to one bucket. -/
  | narrowed (id : ObjectId) (key : GroupKind)
  /-- Everything was forgotten. -/
  | cleared
  deriving DecidableEq, Repr

namespace Event

/-- How much an event matters. -/
def level : Event → Level
  | .created _ => .info
  | .skipped _ _ => .trace
  | .compared _ _ _ _ => .trace
  | .updated _ _ => .debug
  | .removed _ _ => .debug
  | .lookedUp _ _ _ _ => .debug
  | .narrowed _ _ => .trace
  | .cleared => .info

/-- The text of an event. -/
def message : Event → String
  | .created settings =>
      "Creating object graph: expansion_label=" ++ settings.expansion.text ++
        ", noop_check=" ++ settings.skip.title
  | .skipped label source =>
      "Skipping unchanged label " ++ label.text ++ " for " ++ source.encode
  | .compared label source withdrawn listed =>
      "Diffing label " ++ label.text ++ " for " ++ source.encode ++ ": " ++
        toString withdrawn ++ " removed, " ++ toString listed ++ " reported"
  | .updated source tally =>
      "Updated " ++ source.encode ++ ": " ++ toString tally.changed ++ " labels changed, " ++
        toString tally.skipped ++ " skipped, +" ++ toString tally.added ++ " -" ++
        toString tally.removed ++ " edges"
  | .removed source edges =>
      "Removed " ++ source.encode ++ ": -" ++ toString edges ++ " edges"
  | .lookedUp id label objects groups =>
      "Links of " ++ id.encode ++ " via " ++ label.text ++ ": " ++ toString objects ++
        " objects in " ++ toString groups ++ " groups"
  | .narrowed id key => "Narrowing links of " ++ id.encode ++ " to " ++ key.display
  | .cleared => "Cleared object graph"

/-- The record of an event. -/
def record (event : Event) : String :=
  event.level.name ++ " " ++ event.message

/-- The records of the events down to a level; without a level there are none. -/
def records (finest : Option Level) (events : List Event) : List String :=
  match finest with
  | none => []
  | some finest =>
      (events.filter fun event => event.level.rank ≤ finest.rank).map record

/-! ## The events of a call -/

/-- The event of one report. -/
def ofOutcome (source : ObjectId) (label : Label) : Outcome → Event
  | .skipped => .skipped label source
  | .applied withdrawn listed _ _ => .compared label source withdrawn listed

/-- The events of an update. -/
def ofUpdate (source : ObjectId) (applied : Graph.Applied) : List Event :=
  (applied.outcomes.map fun outcome => ofOutcome source outcome.1 outcome.2) ++
    [.updated source applied.tally]

/-- The events of a removal. -/
def ofRemove (source : ObjectId) (applied : Graph.Applied) : List Event :=
  [.removed source applied.tally.removed]

/-- The events of a lookup of links; a failed one leaves none. -/
def ofLinks (id : ObjectId) (label : Label) : Except Failure Links → List Event
  | .error _ => []
  | .ok links => [.lookedUp id label links.size links.length]

/-- The events of a query: its lookup, and the narrowing if it keeps one bucket. -/
def ofQuery (graph : Graph) (id : ObjectId) (query : Query) : List Event :=
  match query.plan with
  | .error _ => []
  | .ok (label, selection) =>
      match graph.links id label with
      | .error _ => []
      | .ok links =>
          ofLinks id label (.ok links) ++ selection.toList.map (.narrowed id)

end Event

end InventoryGraph
