import JsonPath.Assertion
import JsonPath.CommandLine.Directory
import JsonPath.Function.Extension
import JsonPath.Main
import JsonPath.Proofs.Assertions
import JsonPath.Proofs.CommandLine.Lines
import JsonPath.Proofs.Evaluation.Composition
import JsonPath.Proofs.Evaluation.Descents
import JsonPath.Proofs.Evaluation.EqualDocuments
import JsonPath.Proofs.Evaluation.EqualQueries
import JsonPath.Proofs.Evaluation.Filters
import JsonPath.Proofs.Evaluation.Invocations
import JsonPath.Proofs.Evaluation.SingularQueries
import JsonPath.Proofs.Evaluation.SliceTraversal
import JsonPath.Proofs.Evaluation.TypeSafety
import JsonPath.Proofs.Location.Distinctness
import JsonPath.Proofs.Location.Path
import JsonPath.Proofs.Parsing
import JsonPath.Proofs.ParsingFailure
import JsonPath.Proofs.ParsingPositions
import JsonPath.Proofs.Rendering.RoundTrip
import JsonPath.Proofs.Sessions
import JsonPath.Proofs.Value.Equivalence
import JsonPath.Proofs.Value.ShownLines
import JsonPath.Proofs.Value.RoundTrip
import JsonPath.Proofs.Value.Order
import JsonPath.Proofs.Value.Literals
import JsonPath.Proofs.Grammar.Operands
import JsonPath.Proofs.Grammar.Regrouping
import JsonPath.Proofs.Evaluation.Connectives
import JsonPath.Proofs.Location.Order
import JsonPath.Proofs.Pattern.CategoryRanges
import JsonPath.Proofs.Pattern.Conformance
import JsonPath.Proofs.Pattern.Limits
import JsonPath.Proofs.Pattern.Search
