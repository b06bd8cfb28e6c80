import InventoryGraph.Adjacency.Listing
import InventoryGraph.History
import InventoryGraph.Proofs.Drawing.Quoted
import InventoryGraph.Proofs.Star
import InventoryGraph.Proofs.TextForm

/-!
# The drawing loses nothing

Whoever reads a drawing takes a quoted string up to its first quote that is not
escaped, and takes statements one after the other.  Such a reader, who knows the
style, needs nothing else to find the objects and edges that were drawn, whatever
characters their ids and labels have (`read?_draw`).  A reader who does not know the
style sees this much: what stands around the strings of a statement does not depend
on ids and labels, but for the colour of an edge (`contained`).

Main statement: in every style, two graphs have the same drawing exactly when they
have the same snapshot, no id or label gets out of its string, and the reader finds
what was drawn (`draw_run_lossless`).
-/

namespace InventoryGraph

namespace Drawing

/-! ## Readers -/

/-- A reader takes something off the front of a text. -/
abbrev Reader :=
  StateT (List Char) Option

namespace Reader

/-- Takes a given text. -/
def skip (text : String) : Reader Unit := fun chars =>
  (text.toList.isPrefixOf? chars).map fun rest => ((), rest)

/-- Takes the rest of a quoted string, up to the first quote that is not escaped. -/
def body : Reader (List Char)
  | [] => none
  | '"' :: rest => some ([], rest)
  | ['\\'] => none
  | '\\' :: sign :: rest => do
      let c ← unescape? sign
      let (text, rest) ← body rest
      return (c :: text, rest)
  | c :: rest => do
      let (text, rest) ← body rest
      return (c :: text, rest)

/-- Takes a quoted string. -/
def quoted : Reader String := do
  skip "\""
  let text ← body
  return String.ofList text

/-- Takes a quoted string with the text form of an id. -/
def id : Reader ObjectId := do
  let text ← quoted
  match ObjectId.decode text with
  | .ok id => return id
  | .error _ => failure

/-- Takes the statement of an object: the object and its caption. -/
def node : Reader (ObjectId × String) := do
  skip "    "
  let id ← id
  skip " [label="
  let caption ← quoted
  skip "];\n"
  return (id, caption)

/-- Takes the statement of an edge. -/
def edge (style : Style) : Reader Edge := do
  skip "    "
  let source ← id
  skip " -- "
  let target ← id
  skip " [label="
  let label ← quoted
  skip (colour style ⟨label⟩)
  skip "];\n"
  return ⟨source, ⟨label⟩, target⟩

/-- Takes as many things of a kind as there are. -/
def many {α : Type} (read : Reader α) (chars : List Char) : List α × List Char :=
  match read chars with
  | none => ([], chars)
  | some (a, rest) =>
      if rest.length < chars.length then
        let (others, rest) := many read rest
        (a :: others, rest)
      else
        ([], chars)
  termination_by chars.length

/-- Takes the list of all things of a kind that follow one another. -/
def list {α : Type} (read : Reader α) : Reader (List α) := fun chars =>
  some (many read chars)

end Reader

/-- What a drawing shows: the objects with their captions, and the edges. -/
structure Contents where
  nodes : List (ObjectId × String)
  edges : List Edge
  deriving DecidableEq, Repr

/-- Takes a drawing. -/
def Reader.contents (style : Style) : Reader Contents := do
  skip (opening style)
  let nodes ← list node
  skip "\n"
  let edges ← list (edge style)
  skip "\x7d\n"
  return ⟨nodes, edges⟩

/-- What a text shows as a drawing in a given style. -/
def read? (style : Style) (text : String) : Option Contents :=
  match Reader.contents style text.toList with
  | some (contents, []) => some contents
  | _ => none

/-- What the drawing of an adjacency shows. -/
def Contents.ofAdjacency (style : Style) (edges : Adjacency) : Contents :=
  ⟨edges.ids.map fun id => (id, caption style id), edges.undirected⟩

/-! ## Reading statements -/

/-- In front of `rest`, a reader takes a text for `a`. -/
def Takes {α : Type} (read : Reader α) (text : String) (a : α) (rest : List Char) : Prop :=
  read (text.toList ++ rest) = some (a, rest)

namespace Takes

variable {α β : Type} {rest : List Char}

theorem bind {read : Reader α} {next : α → Reader β} {first second : String} {a : α} {b : β}
    (before : Takes read first a (second.toList ++ rest))
    (after : Takes (next a) second b rest) : Takes (read >>= next) (first ++ second) b rest := by
  unfold Takes at before after ⊢
  rw [String.toList_append, List.append_assoc]
  change (read _).bind _ = _
  rw [before]
  exact after

theorem bind_return {read : Reader α} {next : α → Reader β} {text : String} {a : α} {b : β}
    (taken : Takes read text a rest) (returns : next a = pure b) :
    Takes (read >>= next) text b rest := by
  unfold Takes at taken ⊢
  change (read _).bind _ = _
  rw [taken]
  exact congrFun returns rest

theorem skip (text : String) (rest : List Char) : Takes (.skip text) text () rest := by
  have front : text.toList.isPrefixOf? (text.toList ++ rest) = some rest :=
    List.isPrefixOf?_eq_some_iff_append_eq.mpr rfl
  rw [Takes, Reader.skip, front, Option.map_some]

end Takes

theorem body_cons {c : Char} (notMark : c ≠ '\\') (notQuote : c ≠ '"') (chars : List Char) :
    Reader.body (c :: chars) = (Reader.body chars).map fun (text, rest) => (c :: text, rest) := by
  cases read : Reader.body chars <;> simp [Reader.body, notMark, read]

theorem body_escaped {sign c : Char} (signed : unescape? sign = some c) (chars : List Char) :
    Reader.body ('\\' :: sign :: chars) =
      (Reader.body chars).map fun (text, rest) => (c :: text, rest) := by
  cases read : Reader.body chars <;> simp [Reader.body, signed, read]

/-- A quoted string is read up to the quote behind its text. -/
theorem body_flatMap_writeChar (text rest : List Char) :
    Reader.body (text.flatMap writeChar ++ '"' :: rest) = some (text, rest) := by
  induction text with
  | nil => rfl
  | cons c text ih =>
      rw [List.flatMap_cons, List.append_assoc]
      rcases writeChar_cases c with
        ⟨notMark, notQuote, _, plain⟩ | ⟨sign, _, signed, escaped⟩
      · rw [plain, List.singleton_append, body_cons notMark notQuote, ih, Option.map_some]
      · rw [escaped, List.cons_append, List.singleton_append, body_escaped signed, ih,
          Option.map_some]

namespace Takes

theorem body (text : String) (rest : List Char) :
    Takes .body (String.ofList (text.toList.flatMap writeChar) ++ "\"") text.toList rest := by
  rw [Takes, String.toList_append, String.toList_ofList, List.append_assoc]
  exact body_flatMap_writeChar text.toList rest

theorem quoted (text : String) (rest : List Char) :
    Takes .quoted (quote text) text rest := by
  have parts : quote text =
      "\"" ++ (String.ofList (text.toList.flatMap writeChar) ++ "\"") := by
    apply String.toList_inj.mp
    simp [quote]
  rw [parts]
  exact (skip _ _).bind <| (body text rest).bind_return (by rw [String.ofList_toList])

theorem id (id : ObjectId) (rest : List Char) : Takes .id (quote id.encode) id rest :=
  (quoted id.encode rest).bind_return (by rw [ObjectId.decode_encode])

theorem node (style : Style) (id : ObjectId) (rest : List Char) :
    Takes .node (Drawing.node style id) (id, caption style id) rest := by
  simp only [Drawing.node, String.append_assoc]
  exact (skip _ _).bind <| (Takes.id id _).bind <| (skip _ _).bind <|
    (quoted _ _).bind <| (skip _ _).bind_return rfl

theorem edge (style : Style) (edge : Edge) (rest : List Char) :
    Takes (.edge style) (Drawing.edge style edge) edge rest := by
  simp only [Drawing.edge, String.append_assoc]
  exact (skip _ _).bind <| (Takes.id _ _).bind <| (skip _ _).bind <| (Takes.id _ _).bind <|
    (skip _ _).bind <| (quoted _ _).bind <| (skip _ _).bind <| (skip _ _).bind_return rfl

theorem many_cons {read : Reader β} {chars : List Char} {b : β}
    (taken : read chars = some (b, rest)) (shorter : rest.length < chars.length) :
    Reader.many read chars = (b :: (Reader.many read rest).1, (Reader.many read rest).2) := by
  rw [Reader.many, taken]
  exact if_pos shorter

theorem many {read : Reader β} {write : α → String} {content : α → β}
    (takes : ∀ a rest, Takes read (write a) (content a) rest) (nonempty : ∀ a, write a ≠ "")
    (stops : read rest = none) (items : List α) :
    Reader.many read ((String.join (items.map write)).toList ++ rest) =
      (items.map content, rest) := by
  induction items with
  | nil =>
      change Reader.many read rest = ([], rest)
      rw [Reader.many, stops]
  | cons a items ih =>
      have written : 0 < (write a).toList.length :=
        List.length_pos_iff.mpr fun vacant => nonempty a (String.toList_eq_nil_iff.mp vacant)
      have shorter : ∀ chars : List Char,
          chars.length < ((write a).toList ++ chars).length := by
        intro chars
        rw [List.length_append]
        omega
      rw [List.map_cons, String.join_cons, String.toList_append, List.append_assoc,
        many_cons (takes a _) (shorter _), ih, List.map_cons]

/-- Things of a kind are taken up to where no further one can be taken. -/
theorem list {read : Reader β} {write : α → String} {content : α → β}
    (takes : ∀ a rest, Takes read (write a) (content a) rest) (nonempty : ∀ a, write a ≠ "")
    (stops : read rest = none) (items : List α) :
    Takes (.list read) (String.join (items.map write)) (items.map content) rest :=
  congrArg some (many takes nonempty stops items)

end Takes

/-! ## Reading drawings -/

theorem bind_eq_none {α β : Type} {read : Reader α} {next : α → Reader β} {chars : List Char}
    (fails : read chars = none) : (read >>= next) chars = none := by
  change (read _).bind _ = _
  rw [fails, Option.bind_none]

/-- A given text is not taken where another one starts. -/
theorem skip_eq_none {text : String} {c other : Char} {front : List Char}
    (starts : text.toList = c :: front) (different : c ≠ other) (rest : List Char) :
    Reader.skip text (other :: rest) = none := by
  simp [Reader.skip, starts, List.isPrefixOf?, different]

theorem node_ne_empty (style : Style) (id : ObjectId) : node style id ≠ "" := by
  intro vacant
  have noChars := congrArg String.toList vacant
  simp [node] at noChars

theorem edge_ne_empty (style : Style) (edge : Edge) : Drawing.edge style edge ≠ "" := by
  intro vacant
  have noChars := congrArg String.toList vacant
  simp [Drawing.edge] at noChars

theorem contents_draw (style : Style) (edges : Adjacency) :
    Takes (.contents style) (edges.draw style) (.ofAdjacency style edges) [] := by
  have nodes : ∀ more, Takes (.list .node) (String.join (edges.ids.map (node style)))
      (edges.ids.map fun id => (id, caption style id)) (("\n" ++ more).toList ++ []) := by
    intro more
    have stops : Reader.node (("\n" ++ more).toList ++ []) = none := by
      rw [String.toList_append]
      exact bind_eq_none (skip_eq_none rfl (by decide) (more.toList ++ []))
    exact .list (Takes.node style) (node_ne_empty style) stops edges.ids
  have links : Takes (.list (.edge style))
      (String.join (edges.undirected.map (Drawing.edge style))) edges.undirected
      ("\x7d\n".toList ++ []) := by
    have stops : Reader.edge style ("\x7d\n".toList ++ []) = none :=
      bind_eq_none (skip_eq_none rfl (by decide) ['\n'])
    have taken := Takes.list (Takes.edge style) (edge_ne_empty style) stops edges.undirected
    rwa [List.map_id'] at taken
  simp only [Adjacency.draw, String.append_assoc]
  exact (Takes.skip _ _).bind <| (nodes _).bind <| (Takes.skip _ _).bind <| links.bind <|
    (Takes.skip _ _).bind_return rfl

/-- A drawing shows the objects and edges that it was made of, and nothing else. -/
theorem read?_draw (style : Style) (edges : Adjacency) :
    read? style (edges.draw style) = some (.ofAdjacency style edges) := by
  have taken : Reader.contents style (edges.draw style).toList =
      some (.ofAdjacency style edges, []) := by
    rw [← List.append_nil (edges.draw style).toList]
    exact contents_draw style edges
  unfold read?
  rw [taken]

/-! ## Statements -/

/-- The statement of an edge up to its label. -/
def edgeFront (edge : Edge) : String :=
  "    " ++ quote edge.source.encode ++ " -- " ++ quote edge.target.encode ++
    " [label=" ++ quote edge.label.text

/-- In drawings of a style, ids and labels stay within their strings. -/
structure Contained (style : Style) : Prop where
  /-- Between the quotes of a string, no quote ends it and no line feed breaks it. -/
  strings : ∀ text, (quote text).toList = '"' :: (escapeInTurn text.toList ++ ['"']) ∧
    Quotable (escapeInTurn text.toList)
  /-- The statement of an object is one line. -/
  nodeLine : ∀ id, ∃ line, node style id = line ++ "\n" ∧ '\n' ∉ line.toList
  /-- Around its strings, it is the same for all objects. -/
  nodeFrame : ∀ id rest,
    outside ((node style id).toList ++ rest) = "     [label=];\n".toList ++ outside rest
  /-- The statement of an edge is one line, up to the colour that the style gives. -/
  edgeLine : ∀ edge,
    Drawing.edge style edge = edgeFront edge ++ colour style edge.label ++ "];\n" ∧
      '\n' ∉ (edgeFront edge).toList
  /-- Around its strings, it is the same for all edges up to the colour. -/
  edgeFrame : ∀ edge rest,
    outside ((edgeFront edge).toList ++ rest) = "     --  [label=".toList ++ outside rest
  /-- Different objects have different names. -/
  names : ∀ left right : ObjectId, quote left.encode = quote right.encode ↔ left = right

theorem quote_inj {left right : String} : quote left = quote right ↔ left = right := by
  constructor
  · intro same
    have taken := Takes.quoted left []
    rw [Takes, same, Takes.quoted right []] at taken
    simpa using taken.symm
  · exact congrArg quote

theorem contained (style : Style) : Contained style where
  strings text := by
    rw [← flatMap_writeChar_eq_escapeInTurn]
    exact ⟨by simp [quote], quotable_flatMap_writeChar text.toList⟩
  nodeLine id := by
    refine ⟨"    " ++ quote id.encode ++ " [label=" ++ quote (caption style id) ++ "];", ?_, ?_⟩
    · simp only [node, String.append_assoc]
      rfl
    · simp [newline_not_mem_quote]
  nodeFrame id rest := by
    simp only [node, String.toList_append, List.append_assoc]
    rw [outside_append (by simp), outside_quote, outside_append (by simp), outside_quote,
      outside_append (by simp)]
    rfl
  edgeLine edge := ⟨rfl, by simp [edgeFront, newline_not_mem_quote]⟩
  edgeFrame edge rest := by
    simp only [edgeFront, String.toList_append, List.append_assoc]
    rw [outside_append (by simp), outside_quote, outside_append (by simp), outside_quote,
      outside_append (by simp), outside_quote]
    rfl
  names left right := by rw [quote_inj, ObjectId.encode_inj]

end Drawing

namespace Graph

/-- In every style, symmetric graphs have the same drawing exactly when they have the
same snapshot. -/
theorem draw_eq_iff {first second : Graph} (firstSymmetric : first.edges.Symmetric)
    (secondSymmetric : second.edges.Symmetric) (style : Style) :
    first.draw style = second.draw style ↔ first.snapshot = second.snapshot := by
  constructor
  · intro same
    have read := Drawing.read?_draw style first.snapshot
    rw [← Graph.draw, same, Graph.draw, Drawing.read?_draw, Option.some.injEq] at read
    have edges : second.snapshot.undirected = first.snapshot.undirected :=
      congrArg Drawing.Contents.edges read
    apply (Adjacency.edgeSet_eq_iff firstSymmetric secondSymmetric).mp
    rw [← Adjacency.edgeSet_snapshot first.edges, ← Adjacency.edgeSet_snapshot second.edges]
    exact congrArg List.toFinset edges.symm
  · exact congrArg fun edges : Adjacency => edges.draw style

/-- After every two histories and in every style, the drawings are the same exactly
when the snapshots are.  A reader of a drawing finds the objects and edges of the
snapshot and nothing else, as no id and no label gets out of its string. -/
theorem draw_run_lossless (style : Style) (settings otherSettings : Settings)
    (changes otherChanges : List Change) :
    (((fresh settings).run changes).draw style =
        ((fresh otherSettings).run otherChanges).draw style ↔
      ((fresh settings).run changes).snapshot =
        ((fresh otherSettings).run otherChanges).snapshot) ∧
      Drawing.read? style (((fresh settings).run changes).draw style) =
        some (.ofAdjacency style ((fresh settings).run changes).snapshot) ∧
      Drawing.Contained style := by
  have symmetric := symmetric_run (symmetric_fresh settings) changes
  have otherSymmetric := symmetric_run (symmetric_fresh otherSettings) otherChanges
  exact ⟨draw_eq_iff symmetric otherSymmetric style, Drawing.read?_draw style _,
    Drawing.contained style⟩

end Graph

end InventoryGraph
