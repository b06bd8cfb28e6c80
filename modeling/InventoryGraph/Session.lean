import InventoryGraph.Document
import InventoryGraph.Drawing
import InventoryGraph.Event
import InventoryGraph.History

/-!
# Sessions

A session is a list of calls on one graph.  A call is a change or a question;
each gives an answer and leaves events, and only a change makes a new graph.
-/

namespace InventoryGraph

/-- What a query is asked for. -/
inductive Query.Goal where
  /-- The objects, in one list. -/
  | listed
  /-- The objects, in buckets. -/
  | grouped
  /-- How many objects there are. -/
  | count
  /-- Whether there is any object. -/
  | holds
  deriving DecidableEq, Repr

/-- A question to a graph. -/
inductive Request where
  | reach (seeds : List ObjectId) (label : Label)
  | links (id : ObjectId) (label : Label)
  | linksOfText (text : String) (label : Label)
  | query (id : ObjectId) (parts : List Query.Part) (goal : Query.Goal)
  | neighbours (id : ObjectId) (label : Label)
  | lastReport (source : ObjectId) (label : Label)
  | labels (id : ObjectId)
  | contains (id : ObjectId)
  | nodeCount
  | edgeCount
  | snapshot
  | document
  | draw (style : Style)

/-- A call on a graph: a change or a question. -/
inductive Call where
  | change (change : Change)
  | request (request : Request)

/-- The answer to a call. -/
inductive Answer where
  /-- The call failed. -/
  | failed (cause : Failure)
  /-- What a change did. -/
  | tally (tally : Tally)
  /-- A set of objects, in their order. -/
  | ids (ids : IdSet)
  /-- Objects in the order of their text forms. -/
  | listed (ids : List ObjectId)
  /-- Objects in buckets. -/
  | links (links : Links)
  | labels (labels : List Label)
  | edges (edges : Adjacency)
  | number (value : Nat)
  | truth (value : Bool)
  | text (value : String)

/-- The answer for a result that may be a failure. -/
def Answer.ofExcept {α : Type} (answer : α → Answer) : Except Failure α → Answer
  | .error cause => .failed cause
  | .ok value => answer value

namespace Graph

/-- The answer to a query. -/
def answerQuery (graph : Graph) (id : ObjectId) (query : Query) : Query.Goal → Answer
  | .listed => .ofExcept .listed (query.listed graph id)
  | .grouped => .ofExcept .links (query.grouped graph id)
  | .count => .ofExcept .number (query.count graph id)
  | .holds => .ofExcept .truth (query.holds graph id)

/-- The answer to a question. -/
def answer (graph : Graph) : Request → Answer
  | .reach seeds label => .ids (graph.reach seeds label)
  | .links id label => .ofExcept .links (graph.links id label)
  | .linksOfText text label => .ofExcept .links (graph.linksOfText text label)
  | .query id parts goal => graph.answerQuery id (.ofParts parts) goal
  | .neighbours id label => .ids (graph.neighbours id label)
  | .lastReport source label => .ids (graph.lastReport source label)
  | .labels id => .labels (graph.edges.labels id)
  | .contains id => .truth (graph.edges.contains id)
  | .nodeCount => .number graph.edges.nodeCount
  | .edgeCount => .number graph.edges.edgeCount
  | .snapshot => .edges graph.snapshot
  | .document => .text graph.document
  | .draw style => .text (graph.draw style)

end Graph

namespace Event

/-- The events of a change. -/
def ofChange (change : Change) (applied : Graph.Applied) : List Event :=
  match change with
  | .update source _ => ofUpdate source applied
  | .remove source => ofRemove source applied
  | .clear => [.cleared]

/-- The events of a question; only lookups of links leave any. -/
def ofRequest (graph : Graph) : Request → List Event
  | .links id label => ofLinks id label (graph.links id label)
  | .linksOfText text label =>
      match ObjectId.decode text with
      | .error _ => []
      | .ok id => ofLinks id label (graph.links id label)
  | .query id parts _ => ofQuery graph id (.ofParts parts)
  | _ => []

end Event

/-- What a call leads to. -/
structure Turn where
  graph : Graph
  answer : Answer
  events : List Event

namespace Graph

/-- Makes a call. -/
def call (graph : Graph) : Call → Turn
  | .change change =>
      let applied := graph.change change
      ⟨applied.graph, .tally applied.tally, Event.ofChange change applied⟩
  | .request request => ⟨graph, graph.answer request, Event.ofRequest graph request⟩

/-- Makes calls one after the other. -/
def session (graph : Graph) : List Call → List Turn
  | [] => []
  | call :: rest =>
      let turn := graph.call call
      turn :: turn.graph.session rest

end Graph

end InventoryGraph
