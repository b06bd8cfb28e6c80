import InventoryGraph.Links
import InventoryGraph.Reach
import InventoryGraph.Report

/-!
# The relationship graph

A graph holds its settings, its edges and the last report of each source under
each label.  A new report is compared with the last one of the same source and
label: objects it leaves out are parted from the source, objects it lists are
joined with it, whoever else has reported the same edges.

Lookups go in two steps.  The unit of an object is everything joined with it by
the expansion label, and its links under a label are what can be reached from
the unit along that label, the object itself left out.
-/

namespace InventoryGraph

/-- The relationship graph. -/
structure Graph where
  settings : Settings := {}
  /-- The edges, each stored at both ends. -/
  edges : Adjacency := .empty
  /-- The last report of each source under each label; none of them is empty. -/
  reports : Adjacency := .empty
  deriving DecidableEq

namespace Graph

/-- The graph without edges and reports. -/
def fresh (settings : Settings) : Graph :=
  { settings := settings }

/-! ## Changes -/

/-- A graph after a call, and the outcome for each label that the call dealt
with. -/
structure Applied where
  graph : Graph
  outcomes : List (Label × Outcome)
  deriving DecidableEq

/-- The outcomes of a call, summed up. -/
def Applied.tally (applied : Applied) : Tally :=
  .ofOutcomes (applied.outcomes.map Prod.snd)

/-- Applies one report of a source, whether or not it tells anything new. -/
def apply (graph : Graph) (source : ObjectId) (report : Report) : Graph × Outcome :=
  let last := graph.reports.neighbours source report.label
  let withdrawn := last \ report.targets
  let before := graph.edges.neighbours source report.label
  let edges := graph.edges.unlinkAll graph.settings.prune source report.label withdrawn
  let edges := edges.linkAll source report.label report.targets
  let reports := graph.reports.assign source report.label report.targets
  ({ graph with edges := edges, reports := reports },
    .applied withdrawn.size report.targets.size (report.targets \ before).size
      (withdrawn ∩ before).size)

/-- Takes one report of a source and applies it unless the settings say to skip
it. -/
def receive (graph : Graph) (source : ObjectId) (report : Report) : Graph × Outcome :=
  if graph.settings.skip.skips (graph.reports.find? source report.label) report.targets then
    (graph, .skipped)
  else
    graph.apply source report

/-- Takes the reports of a source one after the other. -/
def update (graph : Graph) (source : ObjectId) : List Report → Applied
  | [] => ⟨graph, []⟩
  | report :: rest =>
      let (graph, outcome) := graph.receive source report
      let applied := graph.update source rest
      ⟨applied.graph, (report.label, outcome) :: applied.outcomes⟩

/-- Withdraws every last report of a source. -/
def remove (graph : Graph) (source : ObjectId) : Applied :=
  let last := graph.reports.row source
  { graph :=
      { graph with
        edges :=
          last.foldl
            (fun edges label targets =>
              edges.unlinkAll graph.settings.prune source label targets)
            graph.edges
        reports := graph.reports.eraseRow source }
    outcomes :=
      last.toList.map fun (label, targets) =>
        (label, .applied targets.size 0 0
          (targets ∩ graph.edges.neighbours source label).size) }

/-- Forgets all edges and reports. -/
def clear (graph : Graph) : Graph :=
  fresh graph.settings

/-! ## Reading -/

/-- The objects joined with an object under a label. -/
def neighbours (graph : Graph) (id : ObjectId) (label : Label) : IdSet :=
  graph.edges.neighbours id label

/-- The objects in the last report of a source under a label. -/
def lastReport (graph : Graph) (source : ObjectId) (label : Label) : IdSet :=
  graph.reports.neighbours source label

/-- The edges without empty entries. -/
def snapshot (graph : Graph) : Adjacency :=
  graph.edges.snapshot

/-- The objects that can be reached from any of `seeds` along a label, the seeds
among them. -/
def reach (graph : Graph) (seeds : List ObjectId) (label : Label) : IdSet :=
  graph.edges.reach seeds label

/-- The logical unit of an object. -/
def unit (graph : Graph) (id : ObjectId) : IdSet :=
  graph.reach [id] graph.settings.expansion

/-- The objects linked with an object under a label.  Along the expansion label
nothing lies outside the unit. -/
def linked (graph : Graph) (id : ObjectId) (label : Label) : IdSet :=
  let unit := graph.unit id
  let reached :=
    if label = graph.settings.expansion then unit else graph.reach unit.toList label
  reached.erase id

/-- The objects linked with an object under a label, in buckets. -/
def links (graph : Graph) (id : ObjectId) (label : Label) : Except Failure Links :=
  (Links.ofIds (graph.linked id label).toList).mapError .decode

/-- The links of the object with a given text form. -/
def linksOfText (graph : Graph) (text : String) (label : Label) : Except Failure Links := do
  let id ← (ObjectId.decode text).mapError Failure.decode
  graph.links id label

end Graph

end InventoryGraph
