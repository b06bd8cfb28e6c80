import InventoryGraph.Graph

/-!
# The Graphviz drawing of a graph

The drawing has a statement for each object that has edges and one for each
undirected edge.  Ids and labels stand in quoted strings, in which quotes,
backslashes and line feeds are escaped, so they cannot end a string or a line.
Rank direction and colours are written as the style gives them.
-/

namespace InventoryGraph

/-- How a graph is drawn. -/
structure Style where
  /-- The colours of labels; a label without one is drawn in the default colour. -/
  colours : Std.ExtTreeMap Label String
  /-- The direction in which ranks follow one another. -/
  rankdir : String
  /-- Whether the label of an object shows its namespace. -/
  showSpace : Bool

namespace Style

/-- Left to right, with namespaces, and with colours for three labels. -/
def standard : Style where
  colours :=
    Std.ExtTreeMap.ofList
      [(Label.offshoot, "#9E9E9E"), (Label.exposedBy, "#42A5F5"), (Label.storage, "#FFB300")]
  rankdir := "LR"
  showSpace := true

/-- The style with other colours added, later ones replacing earlier ones. -/
def paint (style : Style) (colours : List (Label × String)) : Style :=
  { style with colours := style.colours.insertMany colours }

end Style

namespace Drawing

/-- How a character is written in a quoted string. -/
def writeChar (c : Char) : List Char :=
  if c = '\\' then ['\\', '\\']
  else if c = '"' then ['\\', '"']
  else if c = '\n' then ['\\', 'n']
  else [c]

/-- A text as a quoted string. -/
def quote (text : String) : String :=
  String.ofList ('"' :: text.toList.flatMap writeChar ++ ['"'])

/-- The text shown for an object: its sort, and below it the object itself. -/
def caption (style : Style) (id : ObjectId) : String :=
  id.groupKind.display ++ "\n" ++
    if style.showSpace then id.objectKey.display else id.name

/-- The statement of an object. -/
def node (style : Style) (id : ObjectId) : String :=
  "    " ++ quote id.encode ++ " [label=" ++ quote (caption style id) ++ "];\n"

/-- The attribute for the colour of a label, if it has one. -/
def colour (style : Style) (label : Label) : String :=
  match style.colours[label]? with
  | none => ""
  | some colour => ", color=\"" ++ colour ++ "\""

/-- The statement of an edge. -/
def edge (style : Style) (edge : Edge) : String :=
  "    " ++ quote edge.source.encode ++ " -- " ++ quote edge.target.encode ++
    " [label=" ++ quote edge.label.text ++ colour style edge.label ++ "];\n"

/-- The statements in front of the objects. -/
def opening (style : Style) : String :=
  "graph object_graph \x7b\n" ++ "    rankdir=" ++ style.rankdir ++ ";\n" ++
    "    node [shape=box];\n\n"

end Drawing

/-- The drawing of the edges of an adjacency. -/
def Adjacency.draw (edges : Adjacency) (style : Style) : String :=
  Drawing.opening style ++ String.join (edges.ids.map (Drawing.node style)) ++ "\n" ++
    String.join (edges.undirected.map (Drawing.edge style)) ++ "\x7d\n"

/-- The drawing of a graph. -/
def Graph.draw (graph : Graph) (style : Style) : String :=
  graph.snapshot.draw style

end InventoryGraph
