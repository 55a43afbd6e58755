import Implementers.Main
import Implementers.Ty.Display
import Implementers.Proofs.Matching
import Implementers.Proofs.Query.Gathering
import Implementers.Proofs.Promotion.Aliases
import Implementers.Proofs.Promotion.Package
import Implementers.Proofs.Order.Declarations
import Implementers.Proofs.Query.Owners
import Implementers.Proofs.Query.Scheduling
import Implementers.Proofs.Syntax.Lossless
import Implementers.Proofs.Interfaces.Package
import Implementers.Proofs.FanIn.Failures
import Implementers.Proofs.Query.Blocking
import Implementers.Proofs.Query.Outside
import Implementers.Proofs.Syntax.Brackets
import Implementers.Proofs.Syntax.Entries
import Implementers.Proofs.Syntax.ReadBack
import Implementers.Proofs.Syntax.RoundTrip
import Implementers.Proofs.Promotion.Loops
import Implementers.Proofs.Query.Entities
import Implementers.Proofs.Scope.Cycles
import Implementers.Proofs.Syntax.Comments
import Implementers.Proofs.Promotion.Transparency
import Implementers.Proofs.TypeEquivalence
import Implementers.Proofs.Query.Sealing
import Implementers.Proofs.Query.Flattening
import Implementers.Proofs.Query.Localization
import Implementers.Proofs.Promotion.Inheritance
import Implementers.Proofs.Query.Pointers
import Implementers.Proofs.Scope.Parameters
import Implementers.Proofs.Scope.Opacity
import Implementers.Proofs.Syntax.LineEnds
import Implementers.Proofs.Files.Partition
import Implementers.Proofs.Scope.Reports
import Implementers.Proofs.Syntax.Productions
import Implementers.Proofs.Scope.Completeness
import Implementers.Proofs.Files.Modules
import Implementers.Proofs.Report.Rendering
import Implementers.Proofs.Scope.Faults
import Implementers.Proofs.Text.Offsets
import Implementers.Proofs.Scope.Restoration
