import Implementers.Proofs.Files.Paths
import Implementers.Proofs.Text.LineStarts

namespace Implementers.Text

/-!
# Lines of a text

The line of an offset is one more than the newlines before it, and its column is one more than the
bytes since the last of them.  The line that an offset is on is what stands between the newlines
around it, so the column is never further than one behind the end of the line.
-/

/-! ## Segments around a place -/

end Implementers.Text
