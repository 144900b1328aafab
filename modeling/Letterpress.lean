import Letterpress.Engine.Precompile
import Letterpress.Engine.Response
import Letterpress.Main
import Letterpress.Proofs.Engine.Coherence
import Letterpress.Proofs.Engine.Failure
import Letterpress.Proofs.Engine.Transparency
import Letterpress.Proofs.Expr.Heading
import Letterpress.Proofs.Program.RoundTrip
import Letterpress.Proofs.Program.Simulation
import Letterpress.Proofs.Template.Chain
import Letterpress.Proofs.Template.Flattening
import Letterpress.Proofs.Template.Nesting
import Letterpress.Proofs.Template.Segmentation
import Letterpress.Proofs.Files.Sparing
import Letterpress.Proofs.Engine.Errand
import Letterpress.Proofs.Engine.Frame
import Letterpress.Proofs.Engine.Once
import Letterpress.Engine.Threads
import Letterpress.Proofs.Engine.Threads
import Letterpress.Proofs.Engine.SharedBuild
import Letterpress.Engine.Race
import Letterpress.Proofs.Engine.Race
import Letterpress.Proofs.Engine.Confinement
import Letterpress.Proofs.Template.Positions
import Letterpress.Engine.Removals
import Letterpress.Proofs.Engine.Removals
import Letterpress.Proofs.Value.Comparison
import Letterpress.Proofs.Value.Equality
import Letterpress.Proofs.Expr.Quotation
import Letterpress.Proofs.Expr.Faults
import Letterpress.Proofs.Expr.Printing
import Letterpress.Proofs.Program.Passages
import Letterpress.Proofs.Value.Iteration
import Letterpress.Proofs.Datum
import Letterpress.Proofs.Program.Literals
import Letterpress.Proofs.Program.Structure
import Letterpress.Proofs.Shelf
import Letterpress.Proofs.Engine.Precompile
