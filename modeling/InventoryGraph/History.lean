import InventoryGraph.Graph

/-!
# Histories

A graph changes by updates, removals and clearings only.  This file names the
changes as data, so that the states of a graph are those that some list of
changes leads to from a fresh one.
-/

namespace InventoryGraph

/-- A change of a graph. -/
inductive Change where
  /-- A source reports. -/
  | update (source : ObjectId) (reports : List Report)
  /-- A source withdraws all it has reported. -/
  | remove (source : ObjectId)
  /-- Everything is forgotten. -/
  | clear

namespace Change

/-- The source that makes a change. -/
def source? : Change → Option ObjectId
  | .update source _ => some source
  | .remove source => some source
  | .clear => none

/-- All reports of a change are such as `allowed` lets their source make. -/
def Within (allowed : ObjectId → Report → Prop) : Change → Prop
  | .update source reports => ∀ report ∈ reports, allowed source report
  | .remove _ => True
  | .clear => True

end Change

/-- In some update of a history, a source lists an object under a label. -/
def Lists (changes : List Change) (source : ObjectId) (label : Label) (target : ObjectId) :
    Prop :=
  ∃ reports, Change.update source reports ∈ changes ∧
    ∃ report ∈ reports, report.label = label ∧ target ∈ report.targets

namespace Graph

/-- Makes a change. -/
def change (graph : Graph) : Change → Applied
  | .update source reports => graph.update source reports
  | .remove source => graph.remove source
  | .clear => ⟨graph.clear, []⟩

/-- The graph after some changes. -/
def run (graph : Graph) (changes : List Change) : Graph :=
  changes.foldl (fun graph change => (graph.change change).graph) graph

/-- The changes of a history, each with the tally it gives. -/
def tallies (graph : Graph) : List Change → List (Change × Tally)
  | [] => []
  | change :: rest =>
      (change, (graph.change change).tally) :: (graph.change change).graph.tallies rest

@[simp]
theorem run_nil (graph : Graph) : graph.run [] = graph :=
  rfl

@[simp]
theorem run_cons (graph : Graph) (change : Change) (rest : List Change) :
    graph.run (change :: rest) = (graph.change change).graph.run rest :=
  rfl

/-- A run can be cut anywhere. -/
theorem run_append (graph : Graph) (first second : List Change) :
    graph.run (first ++ second) = (graph.run first).run second := by
  simp [run]

end Graph

/-! ## A small inventory -/

namespace Example

/-- A deployment. -/
def web : ObjectId :=
  ⟨"apps", "Deployment", "default", "web"⟩

/-- A pod of the deployment. -/
def pod : ObjectId :=
  ⟨"", "Pod", "default", "web-1"⟩

/-- A volume that the pod uses. -/
def disk : ObjectId :=
  ⟨"", "PersistentVolume", "", "disk"⟩

/-- A deployment and its pod both report their edge, the deployment is removed and
takes the edge along, and the pod reports it anew. -/
def anew : List Change :=
  [.update web [⟨.offshoot, {pod}⟩], .update pod [⟨.offshoot, {web, pod}⟩], .remove web,
    .update pod [⟨.offshoot, {web}⟩]]

/-- The deployment reports its pod, which reports another label back; a volume
reports both and is removed, and so is the pod. -/
def bystanders : List Change :=
  [.update web [⟨.offshoot, {pod}⟩], .update pod [⟨.storage, {web}⟩],
    .update disk [⟨.offshoot, {web, pod}⟩], .update web [⟨.offshoot, {web, pod}⟩],
    .remove disk, .remove pod]

/-- A deployment and its pod report each other, and the pod reports itself too. -/
def eachOther : List Change :=
  [.update web [⟨.offshoot, {pod}⟩], .update pod [⟨.offshoot, {web, pod}⟩]]

/-- A pod reports its deployment, which reports it back, and itself and a volume under
another label. -/
def twoLabels : List Change :=
  [.update pod [⟨.offshoot, {web}⟩],
    .update web [⟨.offshoot, {pod}⟩, ⟨.storage, {web, disk}⟩]]

/-- A deployment and a volume report each other, and then the deployment reports its pod
instead.  The last report of the volume still lists the deployment. -/
def leftBehind : List Change :=
  [.update web [⟨.offshoot, {disk}⟩], .update disk [⟨.offshoot, {web}⟩],
    .update web [⟨.offshoot, {pod}⟩]]

/-- Reports of a deployment that lets go of its pod under one label, lists it under another,
and starts on a third. -/
def secondThoughts : List Report :=
  [⟨.offshoot, ∅⟩, ⟨.storage, {web, pod}⟩, ⟨.exposedBy, {disk}⟩]

/-- Reports of a volume that lists itself, a deployment under another label, and in the end
nothing more. -/
def byItself : List Report :=
  [⟨.offshoot, {disk}⟩, ⟨.storage, {web}⟩, ⟨.exposedBy, {disk}⟩, ⟨.offshoot, ∅⟩]

/-- A deployment, its pod and a volume report in turns. -/
def inTurns : List Change :=
  [.update web [⟨.offshoot, {pod}⟩], .update disk [⟨.storage, {pod, disk}⟩],
    .update pod [⟨.storage, {web}⟩],
    .update web [⟨.offshoot, {web, pod}⟩, ⟨.storage, ∅⟩], .remove disk]

/-- They make the same changes, one of them after the other. -/
def oneByOne : List Change :=
  [.update disk [⟨.storage, {pod, disk}⟩], .remove disk,
    .update web [⟨.offshoot, {pod}⟩],
    .update web [⟨.offshoot, {web, pod}⟩, ⟨.storage, ∅⟩],
    .update pod [⟨.storage, {web}⟩]]

end Example

end InventoryGraph
