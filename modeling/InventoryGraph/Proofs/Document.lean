import InventoryGraph.Adjacency.Listing
import InventoryGraph.Document
import InventoryGraph.History
import InventoryGraph.Proofs.Json.RoundTrip
import InventoryGraph.Proofs.Star
import InventoryGraph.Proofs.TextForm

/-!
# The document determines the graph

A reader of the document starts from a text.  It finds a JSON value there, takes
the texts of nodes and links out of it (`Document.read?`), reads ids from texts, and
joins the ends of each link in both directions (`Document.closure`).

No step loses anything.  JSON is read back as it is written, different ids have
different texts, and although the links are only one half of what a graph stores,
the other half is the same edges seen from their other ends.

Main statement: what is read from the document of a graph after any history agrees
with the snapshot of the graph, and so the document determines the snapshot
(`document_run_tells_snapshot`).
-/

namespace InventoryGraph

/-! ## Reading documents -/

namespace Json

/-- The value of the only member with a given key. -/
def field? (key : String) : Json → Option Json
  | .object members =>
      match valuesAt key members with
      | [value] => some value
      | _ => none
  | _ => none

/-- The text of the only member with a given key. -/
def textAt? (key : String) (value : Json) : Option String :=
  (value.field? key).bind text?

/-- What `read` makes of the items of the only member with a given key. -/
def itemsAt? {α : Type} (read : Json → Option α) (key : String) (value : Json) :
    Option (List α) :=
  match value.field? key with
  | some (.array items) => items.mapM read
  | _ => none

/-- Items are read as what they were written for. -/
theorem mapM_map_eq_some {α β : Type} {write : α → Json} {read : Json → Option β}
    {content : α → β} (reads : ∀ x, read (write x) = some (content x)) (list : List α) :
    (list.map write).mapM read = some (list.map content) := by
  induction list with
  | nil => rfl
  | cons x rest ih => simp [reads, ih]

end Json

namespace Document

/-- The texts of an object: its text form and its four fields. -/
structure Node where
  text : String
  group : String
  kind : String
  space : String
  name : String
  deriving DecidableEq, Repr

/-- The texts of an edge: its label and the text forms of its ends. -/
structure Link where
  label : String
  source : String
  target : String
  deriving DecidableEq, Repr

/-- The texts of an object, from a JSON value. -/
def Node.ofJson? (value : Json) : Option Node := do
  let text ← value.textAt? "id"
  let group ← value.textAt? "group"
  let kind ← value.textAt? "kind"
  let space ← value.textAt? "namespace"
  let name ← value.textAt? "name"
  return ⟨text, group, kind, space, name⟩

/-- The texts of an edge, from a JSON value. -/
def Link.ofJson? (value : Json) : Option Link := do
  let label ← value.textAt? "label"
  let source ← value.textAt? "source"
  let target ← value.textAt? "target"
  return ⟨label, source, target⟩

end Document

/-- The texts in the document of a graph. -/
structure Document where
  nodes : List Document.Node
  links : List Document.Link
  deriving DecidableEq, Repr

namespace Document

/-- The texts in a document, from a JSON value. -/
def ofJson? (value : Json) : Option Document := do
  let nodes ← value.itemsAt? Node.ofJson? "nodes"
  let links ← value.itemsAt? Link.ofJson? "links"
  return ⟨nodes, links⟩

/-- The texts in a document that is given as a JSON text. -/
def read? (text : String) : Option Document :=
  (Json.read? text).bind ofJson?

/-! ## What a document says -/

/-- The object whose fields a node has. -/
def Node.named (node : Node) : ObjectId :=
  ⟨node.group, node.kind, node.space, node.name⟩

/-- A link says that there is an edge from one object to another. -/
def Link.Joins (link : Link) (source : ObjectId) (label : Label) (target : ObjectId) : Prop :=
  ObjectId.decode link.source = .ok source ∧ link.label = label.text ∧
    ObjectId.decode link.target = .ok target

/-- Joins the ends of a link on both sides, if its ends are the texts of ids. -/
def Link.close (edges : Adjacency) (link : Link) : Adjacency :=
  match ObjectId.decode link.source, ObjectId.decode link.target with
  | .ok source, .ok target => edges.link source ⟨link.label⟩ target
  | _, _ => edges

/-- The symmetric closure of the links. -/
def closure (document : Document) : Adjacency :=
  document.links.foldl Link.close .empty

/-- A document tells a snapshot: it lists the objects of the snapshot, and each of
the edges once. -/
structure Tells (document : Document) (snapshot : Adjacency) : Prop where
  /-- The nodes are the objects that the snapshot has entries for. -/
  nodes : document.nodes.map Node.named = snapshot.rows.keys
  /-- They stand in the order of ids. -/
  ordered : document.nodes.Pairwise fun before after =>
    compare before.named after.named = .lt
  /-- The text of a node is read as the id with its four fields. -/
  fields : ∀ node ∈ document.nodes, ObjectId.decode node.text = .ok node.named
  /-- The ends of a link are read as ids of nodes, the smaller one first. -/
  ends : ∀ link ∈ document.links, ∃ source target,
    link.Joins source ⟨link.label⟩ target ∧
      source ∈ document.nodes.map Node.named ∧
      target ∈ document.nodes.map Node.named ∧ source ≤ target
  /-- No two links have the same ends and the same label. -/
  distinct : document.links.Nodup
  /-- The links together with their reverses are the snapshot. -/
  closure : document.closure = snapshot

/-! ## Documents of adjacencies -/

/-- The texts of an object. -/
def Node.ofId (id : ObjectId) : Node :=
  ⟨id.encode, id.group, id.kind, id.space, id.name⟩

/-- The texts of an edge. -/
def Link.ofEdge (edge : Edge) : Link :=
  ⟨edge.label.text, edge.source.encode, edge.target.encode⟩

/-- The texts in the document of an adjacency. -/
def ofAdjacency (edges : Adjacency) : Document :=
  ⟨edges.ids.map Node.ofId, edges.undirected.map Link.ofEdge⟩

theorem Node.ofJson?_toNode (id : ObjectId) : ofJson? id.toNode = some (ofId id) :=
  rfl

theorem Link.ofJson?_toLink (edge : Edge) : ofJson? edge.toLink = some (ofEdge edge) :=
  rfl

theorem ofJson?_toDocument (edges : Adjacency) :
    ofJson? edges.toDocument = some (ofAdjacency edges) := by
  have nodes : edges.toDocument.itemsAt? Node.ofJson? "nodes" =
      some (edges.ids.map Node.ofId) :=
    Json.mapM_map_eq_some Node.ofJson?_toNode edges.ids
  have links : edges.toDocument.itemsAt? Link.ofJson? "links" =
      some (edges.undirected.map Link.ofEdge) :=
    Json.mapM_map_eq_some Link.ofJson?_toLink edges.undirected
  rw [ofJson?, nodes, links]
  rfl

end Document

theorem ObjectId.plain_toNode (id : ObjectId) : Json.Plain id.toNode := by
  apply Json.Plain.ofMembers
  simp only [List.forall_mem_cons]
  exact ⟨.text _, .text _, .text _, .text _, .text _, by simp⟩

theorem Edge.plain_toLink (edge : Edge) : Json.Plain edge.toLink := by
  apply Json.Plain.ofMembers
  simp only [List.forall_mem_cons]
  exact ⟨.text _, .text _, .text _, by simp⟩

theorem Adjacency.plain_toDocument (edges : Adjacency) : Json.Plain edges.toDocument := by
  have links : Json.Plain (.array (edges.undirected.map Edge.toLink)) :=
    .array (List.forall_mem_map.mpr fun edge _ => edge.plain_toLink)
  have nodes : Json.Plain (.array (edges.ids.map ObjectId.toNode)) :=
    .array (List.forall_mem_map.mpr fun id _ => id.plain_toNode)
  apply Json.Plain.ofMembers
  simp only [List.forall_mem_cons]
  exact ⟨links, nodes, by simp⟩

namespace Document

/-- The texts of a document are read from the document as it is written. -/
theorem read?_pretty_toDocument (edges : Adjacency) :
    read? edges.toDocument.pretty = some (ofAdjacency edges) := by
  rw [read?, Json.read?_pretty edges.plain_toDocument, Option.bind_some, ofJson?_toDocument]

end Document

/-! ## An adjacency from its undirected edges -/

namespace Adjacency

/-- Joins the ends of each of some edges. -/
def linkEdges (edges : Adjacency) (list : List Edge) : Adjacency :=
  list.foldl (fun edges edge => edges.link edge.source edge.label edge.target) edges

theorem linkEdges_cons (edges : Adjacency) (edge : Edge) (rest : List Edge) :
    edges.linkEdges (edge :: rest) =
      (edges.link edge.source edge.label edge.target).linkEdges rest :=
  rfl

theorem noEmptyRow_linkEdges {edges : Adjacency} (rows : edges.NoEmptyRow)
    (list : List Edge) : (edges.linkEdges list).NoEmptyRow := by
  induction list generalizing edges with
  | nil => exact rows
  | cons edge rest ih => exact ih (noEmptyRow_link rows _ _ _)

theorem noEmptyEntry_linkEdges {edges : Adjacency} (entries : edges.NoEmptyEntry)
    (list : List Edge) : (edges.linkEdges list).NoEmptyEntry := by
  induction list generalizing edges with
  | nil => exact entries
  | cons edge rest ih => exact ih (noEmptyEntry_link entries _ _ _)

/-- Joining the ends of edges makes two objects neighbours exactly where one of the
edges is between them. -/
theorem mem_neighbours_linkEdges (list : List Edge) (edges : Adjacency) (id : ObjectId)
    (label : Label) (x : ObjectId) :
    x ∈ (edges.linkEdges list).neighbours id label ↔
      (∃ edge ∈ list, edge.label = label ∧
          ((edge.source = id ∧ edge.target = x) ∨ (edge.source = x ∧ edge.target = id))) ∨
        x ∈ edges.neighbours id label := by
  induction list generalizing edges with
  | nil => simp [linkEdges]
  | cons edge rest ih =>
      rw [linkEdges_cons, ih, mem_neighbours_link, List.exists_mem_cons_iff]
      grind

/-- A symmetric adjacency that stores nothing empty comes from its undirected edges. -/
theorem linkEdges_undirected {edges : Adjacency} (symmetric : edges.Symmetric)
    (rows : edges.NoEmptyRow) (entries : edges.NoEmptyEntry) :
    empty.linkEdges edges.undirected = edges := by
  have same : ∀ id label, (empty.linkEdges edges.undirected).neighbours id label =
      edges.neighbours id label := by
    intro id label
    apply Std.ExtTreeSet.ext_mem
    intro x
    rw [mem_neighbours_linkEdges, ← mem_edgeSet_join_iff symmetric, neighbours_empty, edgeSet,
      List.mem_toFinset]
    constructor
    · rintro (⟨edge, member, sameLabel, ends⟩ | absent)
      · have le : edge.source ≤ edge.target := (mem_undirected_iff.mp member).1
        rwa [← Edge.eq_join_iff.mpr ⟨sameLabel, le, ends⟩]
      · simp at absent
    · intro member
      obtain ⟨sameLabel, _, ends⟩ :=
        Edge.eq_join_iff.mp (rfl : Edge.join label id x = Edge.join label id x)
      exact Or.inl ⟨_, member, sameLabel, ends⟩
  apply ext_find? (noEmptyRow_linkEdges noEmptyRow_empty _) rows
  intro id label
  rw [(noEmptyEntry_linkEdges noEmptyEntry_empty _).find?_eq, entries.find?_eq, same]

theorem Symmetric.snapshot {edges : Adjacency} (symmetric : edges.Symmetric) :
    edges.snapshot.Symmetric := by
  intro left right label
  rw [neighbours_snapshot, neighbours_snapshot]
  exact symmetric left right label

end Adjacency

/-! ## Documents tell snapshots -/

namespace Document

theorem Link.joins_ofEdge (edge : Edge) :
    (ofEdge edge).Joins edge.source edge.label edge.target :=
  ⟨ObjectId.decode_encode edge.source, rfl, ObjectId.decode_encode edge.target⟩

theorem Link.ofEdge_injective : Function.Injective ofEdge := by
  rintro ⟨source, label, target⟩ ⟨otherSource, otherLabel, otherTarget⟩ same
  simp only [ofEdge, Link.mk.injEq, ObjectId.encode_inj] at same
  obtain ⟨sameText, rfl, rfl⟩ := same
  rw [Edge.mk.injEq, Label.mk.injEq]
  exact ⟨rfl, sameText, rfl⟩

theorem Link.close_ofEdge (edges : Adjacency) (edge : Edge) :
    close edges (ofEdge edge) = edges.link edge.source edge.label edge.target := by
  simp only [close, ofEdge, ObjectId.decode_encode]

theorem closure_ofAdjacency (edges : Adjacency) :
    (ofAdjacency edges).closure = Adjacency.empty.linkEdges edges.undirected := by
  simp only [closure, ofAdjacency, List.foldl_map, Link.close_ofEdge]
  rfl

theorem map_named_ofAdjacency (edges : Adjacency) :
    (ofAdjacency edges).nodes.map Node.named = edges.ids := by
  rw [ofAdjacency, List.map_map]
  exact List.map_id' edges.ids

variable {edges : Adjacency}

/-- The document of a symmetric adjacency that stores nothing empty tells all of it. -/
theorem tells_ofAdjacency (symmetric : edges.Symmetric) (rows : edges.NoEmptyRow)
    (entries : edges.NoEmptyEntry) : (ofAdjacency edges).Tells edges where
  nodes := by rw [map_named_ofAdjacency, Adjacency.ids_eq_keys rows entries]
  ordered := List.pairwise_map.mpr edges.pairwise_ids
  fields := List.forall_mem_map.mpr fun id _ => ObjectId.decode_encode id
  ends := by
    intro link written
    obtain ⟨edge, member, rfl⟩ := List.mem_map.mp written
    obtain ⟨le, neighbour⟩ := Adjacency.mem_undirected_iff.mp member
    have isNode : ∀ {left right : ObjectId}, right ∈ edges.neighbours left edge.label →
        left ∈ (ofAdjacency edges).nodes.map Node.named := by
      intro left right neighbour
      rw [map_named_ofAdjacency, Adjacency.mem_ids_iff]
      refine ⟨edge.label, fun vacant => ?_⟩
      simp [vacant] at neighbour
    exact ⟨edge.source, edge.target, Link.joins_ofEdge edge, isNode neighbour,
      isNode (symmetric _ _ _ neighbour), le⟩
  distinct := edges.nodup_undirected.map Link.ofEdge_injective
  closure := by
    rw [closure_ofAdjacency, Adjacency.linkEdges_undirected symmetric rows entries]

end Document

namespace Graph

/-- What is read from a document of a symmetric graph tells its snapshot. -/
theorem exists_read?_document {graph : Graph} (symmetric : graph.edges.Symmetric) :
    ∃ document, Document.read? graph.document = some document ∧
      document.Tells graph.snapshot :=
  ⟨.ofAdjacency graph.snapshot, Document.read?_pretty_toDocument graph.snapshot,
    Document.tells_ofAdjacency symmetric.snapshot graph.edges.noEmptyRow_snapshot
      graph.edges.noEmptyEntry_snapshot⟩

/-- Symmetric graphs have the same document exactly when they have the same
snapshot. -/
theorem document_eq_iff {first second : Graph} (firstSymmetric : first.edges.Symmetric)
    (secondSymmetric : second.edges.Symmetric) :
    first.document = second.document ↔ first.snapshot = second.snapshot := by
  constructor
  · intro same
    obtain ⟨document, read, tells⟩ := exists_read?_document firstSymmetric
    obtain ⟨other, otherRead, otherTells⟩ := exists_read?_document secondSymmetric
    rw [same, otherRead, Option.some.injEq] at read
    rw [← tells.closure, ← otherTells.closure, read]
  · exact congrArg fun edges : Adjacency => edges.toDocument.pretty

/-- After every history, under all settings, the document is a JSON text from which
the objects and edges of the snapshot can be read: the objects in order with the
fields of their ids, and the edges once each, whose closure is the snapshot.  So two
graphs have the same document exactly when they have the same snapshot. -/
theorem document_run_tells_snapshot (settings otherSettings : Settings)
    (changes otherChanges : List Change) :
    (∃ document, Document.read? ((fresh settings).run changes).document = some document ∧
      document.Tells ((fresh settings).run changes).snapshot) ∧
    (((fresh settings).run changes).document =
        ((fresh otherSettings).run otherChanges).document ↔
      ((fresh settings).run changes).snapshot =
        ((fresh otherSettings).run otherChanges).snapshot) := by
  have symmetric := symmetric_run (symmetric_fresh settings) changes
  have otherSymmetric := symmetric_run (symmetric_fresh otherSettings) otherChanges
  exact ⟨exists_read?_document symmetric, document_eq_iff symmetric otherSymmetric⟩

end Graph

end InventoryGraph
