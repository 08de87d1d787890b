import TagLint.Main
import TagLint.Proofs.NestingRun
import TagLint.Proofs.WellNested
import TagLint.Proofs.DueFindings
import TagLint.Proofs.LineCuts
import TagLint.Proofs.Renumbering
import TagLint.Proofs.Concatenation
import TagLint.Proofs.LongestName
import TagLint.Proofs.TagPositions
import TagLint.Proofs.TagLines
import TagLint.Proofs.JsonReader
import TagLint.Proofs.JsonRoundTrip
import TagLint.Proofs.JsonReport
import TagLint.Proofs.FindingNames
import TagLint.Proofs.ReportLines
import TagLint.Proofs.TextReport
import TagLint.Proofs.SingleRuns
import TagLint.Proofs.AcceptedArguments
import TagLint.Proofs.TagSources
import TagLint.Proofs.RunFailures
import TagLint.Proofs.LogReplay
import TagLint.Proofs.FindingCounts
import TagLint.Proofs.SingleFaults
import TagLint.Proofs.QuotedTexts
import TagLint.Proofs.WrittenDocuments
import TagLint.Proofs.WrittenTagSets
import TagLint.Proofs.LevelIndependence
import TagLint.Proofs.LogLevels
import TagLint.Proofs.ProgramOutcome
import TagLint.Proofs.FindingOrder
import TagLint.Proofs.NameLists
import TagLint.Proofs.TrackedNames
import TagLint.Proofs.WrittenTags
import TagLint.Proofs.JoinedLines
import TagLint.Proofs.PatternReading
import TagLint.Proofs.PatternSize
