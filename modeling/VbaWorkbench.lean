import VbaWorkbench.Layout.Format
import VbaWorkbench.Line.Extent
import VbaWorkbench.Pattern.Basic
import VbaWorkbench.Settings.Basic
import VbaWorkbench.Snippet.Builtin
import VbaWorkbench.Snippet.Document
import VbaWorkbench.Proofs.Pattern.GroupScan
import VbaWorkbench.Proofs.Pattern.Evaluation
import VbaWorkbench.Proofs.Pattern.Safety
import VbaWorkbench.Proofs.Token.Coverage
import VbaWorkbench.Proofs.Layout.Meaning
import VbaWorkbench.Proofs.Layout.Stability
import VbaWorkbench.Proofs.Token.LineCuts
import VbaWorkbench.Proofs.Block.Balance
import VbaWorkbench.Proofs.Layout.LetterCase
import VbaWorkbench.Proofs.Pattern.Rebuilding
import VbaWorkbench.Proofs.Snippet.Literal
import VbaWorkbench.Proofs.Snippet.Generation
import VbaWorkbench.Proofs.Name.Distinct
import VbaWorkbench.Proofs.Name.Protection
import VbaWorkbench.Proofs.Pattern.Splicing
import VbaWorkbench.Proofs.Pattern.ForeignConstructs
import VbaWorkbench.Proofs.Name.Legality
import VbaWorkbench.Proofs.Name.Crowding
import VbaWorkbench.Proofs.Block.Alignment
import VbaWorkbench.Proofs.Pattern.LiteralSearch
import VbaWorkbench.Proofs.Pattern.ClassFolding
import VbaWorkbench.Proofs.Layout.Indentation
import VbaWorkbench.Proofs.Token.Literals
import VbaWorkbench.Proofs.Layout.LineBreaks
import VbaWorkbench.Proofs.Layout.BlankRuns
import VbaWorkbench.Proofs.Pattern.ProgramSize
import VbaWorkbench.Proofs.Layout.Faults
import VbaWorkbench.Proofs.Snippet.Linewise
import VbaWorkbench.Proofs.Pattern.Calls
import VbaWorkbench.Proofs.Line.Extents
