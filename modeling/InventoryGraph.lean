import InventoryGraph.Adjacency.Entry
import InventoryGraph.Session
import InventoryGraph.Proofs.Split
import InventoryGraph.Proofs.TextForm
import InventoryGraph.Proofs.Fault
import InventoryGraph.Proofs.Fault.Evidence
import InventoryGraph.Proofs.Change
import InventoryGraph.Proofs.Reach
import InventoryGraph.Proofs.Symmetry
import InventoryGraph.Proofs.Links
import InventoryGraph.Proofs.Backing
import InventoryGraph.Adjacency.Extensional
import InventoryGraph.Proofs.ReportOrder
import InventoryGraph.Proofs.Withdrawal
import InventoryGraph.Adjacency.EdgeSet
import InventoryGraph.Proofs.Star
import InventoryGraph.Proofs.Accounting
import InventoryGraph.Proofs.Interleaving
import InventoryGraph.Adjacency.Listing
import InventoryGraph.Proofs.Pruning
import InventoryGraph.Proofs.Ledger
import InventoryGraph.Proofs.Json.Spelling
import InventoryGraph.Proofs.Json.Quoted
import InventoryGraph.Proofs.Json.RoundTrip
import InventoryGraph.Proofs.Json.Literal
import InventoryGraph.Proofs.Json.Forms
import InventoryGraph.Proofs.Document
import InventoryGraph.Proofs.Drawing.Quoted
import InventoryGraph.Proofs.Drawing
import InventoryGraph.Proofs.Frame
import InventoryGraph.Proofs.Components
import InventoryGraph.Adjacency.Parting
import InventoryGraph.Adjacency.OneLabel
import InventoryGraph.Adjacency.InPlace
import InventoryGraph.Proofs.Tidy
import InventoryGraph.Proofs.Storage
import InventoryGraph.Proofs.Removal
import InventoryGraph.Proofs.Query
import InventoryGraph.Proofs.Undisturbed
import InventoryGraph.Proofs.Page
import InventoryGraph.Proofs.SkipRule
import InventoryGraph.Proofs.Repetition
import InventoryGraph.Proofs.Handshake
import InventoryGraph.Proofs.TextOrder
import InventoryGraph.Proofs.PageOrder
