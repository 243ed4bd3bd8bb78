import Citations.Cache.Traffic
import Citations.CommandLine
import Citations.Config
import Citations.Digest.Sha256
import Citations.Document.Suggestion
import Citations.Extraction
import Citations.Extraction.Eligibility
import Citations.FileIndex
import Citations.FileTree.Text
import Citations.Input.Verdict
import Citations.LineRange
import Citations.Link.Direct
import Citations.Main
import Citations.Output.Listing
import Citations.Output.Record
import Citations.Resolution
import Citations.Session.Concurrent
import Citations.Settings
import Citations.Summary
import Citations.Proofs.Cache.Consistency
import Citations.Proofs.Cache.Sharing
import Citations.Proofs.Session.Memory
import Citations.Proofs.Extraction.Blocks
import Citations.Proofs.Document.Passage
import Citations.Proofs.Extraction.Retrieval
import Citations.Proofs.FileTree.Following
import Citations.Proofs.Resolution.Existing
import Citations.Proofs.Checking.Enrichment
import Citations.Proofs.Link.Brackets
import Citations.Proofs.Link.Overlap
import Citations.Proofs.FileTree.Plain
import Citations.Proofs.Session.Steady
import Citations.Proofs.Session.Turns
import Citations.Proofs.Extraction.Order
import Citations.Proofs.Cache.Pending
import Citations.Proofs.Session.Snapshot
import Citations.Proofs.Checking.Conversion
import Citations.Proofs.Document.HeadingNames
import Citations.Proofs.Document.Position
import Citations.Proofs.Document.Exclusion
import Citations.Proofs.Link.Written
import Citations.Proofs.Document.EscapedNames
import Citations.Proofs.Extraction.Statistics
import Citations.Proofs.FileIndex.Listing
import Citations.Proofs.FileIndex.History
import Citations.Proofs.Checking.Schedule
import Citations.Proofs.FileTree.WorkingDirectory
import Citations.Proofs.Checking.Source
import Citations.Proofs.Workflow.Outline
import Citations.Proofs.Workflow.NamedFile
import Citations.Proofs.Checking.OwnDocument
import Citations.Proofs.Link.TargetPath
import Citations.Proofs.Document.Section
import Citations.Proofs.Document.BlockText
import Citations.Proofs.CommandLine.Configuration
import Citations.Proofs.Document.Suggestions
import Citations.Proofs.Document.FrontmatterEnd
import Citations.Proofs.Resolution.Nearest
import Citations.Proofs.Extraction.StopDirective
import Citations.Proofs.Document.CaretLinks
import Citations.Proofs.Document.InlineCode
import Citations.Proofs.Link.CodeSpans
import Citations.Proofs.Link.Parentheses
import Citations.Proofs.Document.EncodedIds
