import LexLint.Checker.Scripted
import LexLint.Document.Linter
import LexLint.Json.Reader
import LexLint.Main
import LexLint.Proofs.Checker.BuiltinWords
import LexLint.Proofs.Checker.CodeView
import LexLint.Proofs.Checker.Declared
import LexLint.Proofs.Checker.Ranges
import LexLint.Proofs.Checker.UnclosedBraces
import LexLint.Proofs.Document.Version
import LexLint.Proofs.Run.Independence
import LexLint.Proofs.Run.Suppression
import LexLint.Proofs.Checker.LineByLine
import LexLint.Proofs.Checker.Fixes
import LexLint.Proofs.Scan.AlignedHeaders
import LexLint.Proofs.View.Returns
import LexLint.Proofs.Run.LineEndings
import LexLint.Proofs.Checker.Overlap
import LexLint.Proofs.Run.JsonLines
import LexLint.Proofs.Options.Load
import LexLint.Proofs.CommandLine.Check
import LexLint.Proofs.Document.Listener
import LexLint.Proofs.Checker.FirstUses
import LexLint.Proofs.Report.Sarif
import LexLint.Proofs.Report.Page
import LexLint.Proofs.Checker.CallSearch
import LexLint.Proofs.Scan.Balance
import LexLint.Proofs.Scan.Markers
import LexLint.Proofs.View.Comments
import LexLint.Proofs.Run.InlineRules
import LexLint.Proofs.Checker.SemicolonFix
import LexLint.Proofs.Checker.OptionBounds
import LexLint.Proofs.CommandLine.GccReport
import LexLint.Proofs.View.Conversion
import LexLint.Proofs.Checker.LineStarts
import LexLint.Proofs.Report.Underline
import LexLint.Proofs.Files.Contents
import LexLint.Proofs.Report.Incremental
import LexLint.Proofs.Run.RegistryHistory
import LexLint.Proofs.View.Stability
import LexLint.Proofs.Scan.BracketAccounts
import LexLint.Proofs.Scan.BraceDepth
import LexLint.Proofs.Checker.AnglePairs
import LexLint.Proofs.Scan.MaximalRuns
