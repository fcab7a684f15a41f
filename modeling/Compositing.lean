import Compositing.Main
import Compositing.Pipeline.Simulated
import Compositing.Workspace
import Compositing.Proofs.Program.Calls
import Compositing.Proofs.Pipeline.Positional
import Compositing.Proofs.Pipeline.Pairing
import Compositing.Proofs.Session.Synchrony
import Compositing.Proofs.Session.Feeds
import Compositing.Proofs.Reorder.AllOrNothing
import Compositing.Proofs.Reorder.Rollback
import Compositing.Proofs.Workspace.Simulated
import Compositing.Proofs.Session.Uploads
import Compositing.Proofs.Session.Textures
import Compositing.Proofs.Program.Dataflow
import Compositing.Proofs.Session.Patches
import Compositing.Proofs.Workspace.Refusals
import Compositing.Proofs.Workspace.Representation
import Compositing.Proofs.Reorder.Serial
import Compositing.Proofs.Session.Acts
import Compositing.Proofs.Session.Detection
import Compositing.Proofs.Workspace.Skipped
import Compositing.Proofs.Workspace.Twins
import Compositing.Proofs.Workspace.Fresh
import Compositing.Proofs.Reorder.States
import Compositing.Proofs.Reorder.Resumed
import Compositing.Proofs.Layer.Refinement
import Compositing.Proofs.Program.Traces
import Compositing.Proofs.Pipeline.Binding
import Compositing.Proofs.Session.Resynthesis
import Compositing.Proofs.Pipeline.Lookups
import Compositing.Proofs.Program.Chains
import Compositing.Proofs.Session.Loading
import Compositing.Proofs.Program.Names
import Compositing.Proofs.Session.Siblings
import Compositing.Proofs.Reorder.Placement
import Compositing.Proofs.Layer.Orders
import Compositing.Proofs.Layer.Lossless
import Compositing.Proofs.Program.Header
import Compositing.Proofs.Program.Listings
import Compositing.Proofs.Workspace.Undone
import Compositing.Proofs.Layer.RoundTrip
