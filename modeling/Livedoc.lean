import Livedoc.Editor.Diagnostic
import Livedoc.Expansion.Session
import Livedoc.Main
import Livedoc.Proofs.Command.Output
import Livedoc.Proofs.Compilation.Containment
import Livedoc.Proofs.Compilation.IntegerVariables
import Livedoc.Proofs.Compilation.Metadata
import Livedoc.Proofs.Document.BlockCall
import Livedoc.Proofs.Document.Body
import Livedoc.Proofs.Document.Division
import Livedoc.Proofs.Document.Fence
import Livedoc.Proofs.Document.LabelledQuote
import Livedoc.Proofs.Document.Markers
import Livedoc.Proofs.Document.WrittenCall
import Livedoc.Proofs.Expansion.CallFree
import Livedoc.Proofs.Expansion.ControlFlow
import Livedoc.Proofs.Expansion.Copy
import Livedoc.Proofs.Expansion.Counting
import Livedoc.Proofs.Expansion.Declarations
import Livedoc.Proofs.Expansion.Limits
import Livedoc.Proofs.Expansion.OuterFrames
import Livedoc.Proofs.Expansion.ParameterLine
import Livedoc.Proofs.Expansion.Power
import Livedoc.Proofs.Expansion.RoundLimit
import Livedoc.Proofs.Expansion.Splice
import Livedoc.Proofs.Expansion.Truncation
import Livedoc.Proofs.Expansion.Truth
import Livedoc.Proofs.Html.Identifiers
import Livedoc.Proofs.Html.ReadBack
import Livedoc.Proofs.Problem.Context
import Livedoc.Tree.Same
