import EpFormat.CommandLine.Run
import EpFormat.Json.Read
import EpFormat.Json.Write
import EpFormat.Main
import EpFormat.Measure.Coverage
import EpFormat.Measure.Round
import EpFormat.Measure.SelfCheck
import EpFormat.Proofs.Conservation
import EpFormat.Proofs.DelimLoss
import EpFormat.Proofs.Idempotence
import EpFormat.Proofs.Marks
import EpFormat.Proofs.MarkupDepth
import EpFormat.Proofs.Outline
import EpFormat.Service.Headers
import EpFormat.Service.Startup
import EpFormat.Service.Upload
import EpFormat.Workload
import EpFormat.Proofs.Utf8
import EpFormat.Proofs.Workspace
import EpFormat.Proofs.Arguments
import EpFormat.Proofs.Visit
import EpFormat.Proofs.Backup
import EpFormat.Proofs.InPlace
import EpFormat.Proofs.Check
import EpFormat.Proofs.OnLines
import EpFormat.Proofs.RawElement
import EpFormat.Proofs.LineEnds
import EpFormat.Proofs.Seam
import EpFormat.Proofs.Delivery
import EpFormat.Proofs.Helper
import EpFormat.Proofs.Gates
import EpFormat.Proofs.Remote
import EpFormat.Proofs.Quota
import EpFormat.Proofs.Alike
import EpFormat.Proofs.Surround
import EpFormat.Proofs.Tokens
import EpFormat.Proofs.Keyword
import EpFormat.Proofs.WholeWords
import EpFormat.Proofs.LeftAlone
import EpFormat.Proofs.Operand
import EpFormat.Proofs.Squeeze
import EpFormat.Proofs.Echo
import EpFormat.Proofs.Inline
import EpFormat.Proofs.Segments
import EpFormat.Proofs.LineCount
import EpFormat.Proofs.CommentShift
import EpFormat.Proofs.RawStart
import EpFormat.Proofs.TrailingPad
import EpFormat.Proofs.Scaling
import EpFormat.Proofs.FileCheck
import EpFormat.Proofs.TellApart
import EpFormat.Proofs.CommonLines
import EpFormat.Proofs.Hunks
import EpFormat.Proofs.Patch
import EpFormat.Proofs.PatchRows
import EpFormat.Proofs.Glued
import EpFormat.Proofs.Usable
import EpFormat.Proofs.Dedent
import EpFormat.Proofs.Lexing
import EpFormat.Proofs.BraceDepth
import EpFormat.Proofs.ReportOnce
import EpFormat.Proofs.Blanked
import EpFormat.Proofs.Plateau
