import DeclGraph.Main
import DeclGraph.Proofs.Alignment
import DeclGraph.Proofs.Atomicity
import DeclGraph.Proofs.Bookkeeping
import DeclGraph.Proofs.Conflicts
import DeclGraph.Proofs.Consistency
import DeclGraph.Proofs.MemberSize
import DeclGraph.Proofs.SecondRun
import DeclGraph.Proofs.Termination
import DeclGraph.Proofs.Independence
import DeclGraph.Proofs.LayoutPass
import DeclGraph.Proofs.Declaring
import DeclGraph.Proofs.Import
import DeclGraph.Proofs.RoundTrip
import DeclGraph.Proofs.Assigned
import DeclGraph.Proofs.Accounting
import DeclGraph.Proofs.Alike
import DeclGraph.Proofs.Respelling
import DeclGraph.Proofs.Namespaces
import DeclGraph.Proofs.Padding
import DeclGraph.Proofs.Survival
import DeclGraph.Proofs.Saturation
import DeclGraph.Proofs.Reloading
import DeclGraph.Proofs.Columns
import DeclGraph.Proofs.Refusals
import DeclGraph.Proofs.Convergence
import DeclGraph.Proofs.Unordered
import DeclGraph.Proofs.BitFields
import DeclGraph.Proofs.Tightness
import DeclGraph.Proofs.Gaps
import DeclGraph.Proofs.Walking
import DeclGraph.Proofs.Linking
import DeclGraph.Proofs.TypedefSizes
import DeclGraph.Proofs.Stripping
import DeclGraph.Proofs.ArrayCounts
import DeclGraph.Proofs.Shadowing
import DeclGraph.Proofs.Watching
import DeclGraph.Proofs.Deciles
import DeclGraph.Proofs.Segments
