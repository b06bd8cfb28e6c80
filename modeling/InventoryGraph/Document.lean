import InventoryGraph.Graph

/-!
# The JSON document of a graph

The document lists the objects that have edges, each with its text form and its
four fields, and the undirected edges, each once.  The keys of its objects are
in alphabetical order.
-/

namespace InventoryGraph

/-- An object in the document. -/
def ObjectId.toNode (id : ObjectId) : Json :=
  .ofMembers
    [("group", .text id.group), ("id", id.toJson), ("kind", .text id.kind),
      ("name", .text id.name), ("namespace", .text id.space)]

/-- An edge in the document. -/
def Edge.toLink (edge : Edge) : Json :=
  .ofMembers
    [("label", edge.label.toJson), ("source", edge.source.toJson),
      ("target", edge.target.toJson)]

/-- The edges of an adjacency as a JSON value. -/
def Adjacency.toDocument (edges : Adjacency) : Json :=
  .ofMembers
    [("links", .array (edges.undirected.map Edge.toLink)),
      ("nodes", .array (edges.ids.map ObjectId.toNode))]

/-- The JSON document of a graph. -/
def Graph.document (graph : Graph) : String :=
  graph.snapshot.toDocument.pretty

end InventoryGraph
