import Formulary.Command.Folder
import Formulary.Main
import Formulary.Parse.Parser
import Formulary.Proofs.Parse.Shifts
import Formulary.Proofs.Parse.Takes
import Formulary.Proofs.Parse.Rendering
import Formulary.Proofs.Parse.Grammar
import Formulary.Proofs.Parse.Precedence
import Formulary.Proofs.Parse.Consumed
import Formulary.Proofs.Parse.Listing
import Formulary.Proofs.Parse.Exact
import Formulary.Proofs.Parse.Leaves
import Formulary.Proofs.Parse.Refusal
import Formulary.Proofs.Parse.Acceptance
import Formulary.Proofs.Number.Nearest
import Formulary.Proofs.Number.Numeral
import Formulary.Proofs.Source.Scanning
import Formulary.Proofs.Print.Printable
import Formulary.Proofs.Print.Kept
import Formulary.Proofs.Print.RoundTrip
import Formulary.Proofs.Parse.Viable
import Formulary.Proofs.Parse.FirstFault
import Formulary.Proofs.Parse.Apart
import Formulary.Proofs.Number.Readable
import Formulary.Proofs.Source.Decomposition
import Formulary.Proofs.Parse.Places
import Formulary.Proofs.Source.Layout
import Formulary.Proofs.Source.Operators
import Formulary.Proofs.Parse.Ranking
import Formulary.Proofs.Print.Writable
import Formulary.Proofs.Print.Emission
import Formulary.Proofs.Number.Figure
import Formulary.Proofs.Print.Numbers
import Formulary.Proofs.Json.Grammar
import Formulary.Proofs.Json.Written
import Formulary.Proofs.Json.Faithful
import Formulary.Proofs.Command.Accepted
import Formulary.Proofs.Command.Delivery
import Formulary.Proofs.Command.Status
import Formulary.Proofs.Node.Displayed
import Formulary.Proofs.Node.Alike
import Formulary.Proofs.Number.Integer
import Formulary.Proofs.Parse.Ending
import Formulary.Proofs.Source.Comments
import Formulary.Proofs.Command.OperatorSpec
import Formulary.Proofs.Text.Utf8
import Formulary.Proofs.Source.LineEnds
import Formulary.Proofs.Command.SourceFile
import Formulary.Proofs.Source.Calls
import Formulary.Proofs.Source.Progress
import Formulary.Proofs.Parse.Descent
import Formulary.Proofs.Parse.Unwinding
import Formulary.Proofs.Parse.Advances
import Formulary.Proofs.Parse.Folding
import Formulary.Proofs.Parse.Rounds
import Formulary.Proofs.Parse.Reach
