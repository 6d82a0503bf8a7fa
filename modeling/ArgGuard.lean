import ArgGuard.Main
import ArgGuard.Proofs.Sequences
import ArgGuard.Proofs.GuardForm
import ArgGuard.Proofs.GuardText
import ArgGuard.Proofs.Reading
import ArgGuard.Proofs.TagLine
import ArgGuard.Proofs.Advance
import ArgGuard.Proofs.Agreement
import ArgGuard.Proofs.Splicing
import ArgGuard.Proofs.Rerun
import ArgGuard.Proofs.Renumbering
import ArgGuard.Proofs.Shift
import ArgGuard.Proofs.Boundary
import ArgGuard.Proofs.InertRegions
import ArgGuard.Proofs.Stopping
import ArgGuard.Proofs.Sections
import ArgGuard.Proofs.MissingCheck
import ArgGuard.Proofs.Completeness
import ArgGuard.Proofs.FailFast
import ArgGuard.Proofs.LineOrder
import ArgGuard.Proofs.Checks
import ArgGuard.Proofs.Expression
import ArgGuard.Proofs.Compiled
import ArgGuard.Proofs.Program
import ArgGuard.Proofs.Reader
import ArgGuard.Proofs.Watch
import ArgGuard.Proofs.Steady
import ArgGuard.Proofs.DeclaredOnce
import ArgGuard.Proofs.Places
import ArgGuard.Proofs.ReadOnly
import ArgGuard.Proofs.Rewriting
import ArgGuard.Proofs.BatchSteps
import ArgGuard.Proofs.InPlace
import ArgGuard.Proofs.FileNames
import ArgGuard.Proofs.OutputDirectory
import ArgGuard.Proofs.Spans
import ArgGuard.Proofs.TagGrammar
import ArgGuard.Proofs.JsonScalars
import ArgGuard.Proofs.JsonGrammar
import ArgGuard.Proofs.JsonValues
import ArgGuard.Proofs.TwoReadings
import ArgGuard.Proofs.RecordReadings
import ArgGuard.Proofs.Layouts
import ArgGuard.Proofs.Integers
import ArgGuard.Proofs.ClauseLanguage
import ArgGuard.Proofs.SchemaLanguage
import ArgGuard.Proofs.OneLine
import ArgGuard.Proofs.LineForms
import ArgGuard.Proofs.PatternTokens
import ArgGuard.Proofs.HolderCapture
import ArgGuard.Proofs.LiveCode
import ArgGuard.Proofs.ArgumentBlocks
import ArgGuard.Proofs.Subscripts
import ArgGuard.Proofs.EndTests
import ArgGuard.Proofs.Spellings
import ArgGuard.Proofs.LineEndings
import ArgGuard.Proofs.PackageFiles
import ArgGuard.Proofs.Squashing
import ArgGuard.Proofs.Listings
import ArgGuard.Proofs.PathOrder
import ArgGuard.Proofs.Findings
import ArgGuard.Proofs.Unordered
