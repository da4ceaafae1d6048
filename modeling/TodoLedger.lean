import TodoLedger.Main
import TodoLedger.Proofs.Document.Entry
import TodoLedger.Proofs.Text.Lines
import TodoLedger.Proofs.Document.Grammar
import TodoLedger.Proofs.Document.Acceptance
import TodoLedger.Proofs.Path
import TodoLedger.Proofs.Workspace.Frame
import TodoLedger.Proofs.Backup
import TodoLedger.Proofs.Text.Utf8
import TodoLedger.Proofs.Workspace.Write
import TodoLedger.Proofs.Text.Stable
import TodoLedger.Proofs.Patch
import TodoLedger.Proofs.Sync.Removal
import TodoLedger.Proofs.Tasks
import TodoLedger.Proofs.Sync.Run
import TodoLedger.Proofs.Sync.Deletion
import TodoLedger.Proofs.Workspace.Sample
import TodoLedger.Proofs.Sync.Repeat
import TodoLedger.Proofs.Sorted
import TodoLedger.Proofs.Text.Numeral
import TodoLedger.Proofs.Text.OneLine
import TodoLedger.Proofs.Timestamp
import TodoLedger.Proofs.Headline
import TodoLedger.Proofs.Document.Rendering
import TodoLedger.Proofs.Comment.Scan
import TodoLedger.Proofs.Gather.Issue
import TodoLedger.Proofs.Gather.Scan
import TodoLedger.Proofs.Workspace.WellFormed
import TodoLedger.Proofs.Text.Clean
import TodoLedger.Proofs.Gather.Marking
import TodoLedger.Proofs.Document.Storage
import TodoLedger.Proofs.Comment.Keyword
import TodoLedger.Proofs.Text.Cut
import TodoLedger.Proofs.Edit
import TodoLedger.Proofs.Splice
import TodoLedger.Proofs.Comment.Exchange
import TodoLedger.Proofs.Comment.Syntax
import TodoLedger.Proofs.Comment.Marker
import TodoLedger.Proofs.Gather.Token
import TodoLedger.Proofs.Gather.Agreement
import TodoLedger.Proofs.Gather.Survival
import TodoLedger.Proofs.Text.Append
import TodoLedger.Proofs.Document.Appending
import TodoLedger.Proofs.Gather.Course
import TodoLedger.Proofs.Gather.Repeat
import TodoLedger.Proofs.Gather.Fresh
import TodoLedger.Proofs.Sync.Sweep
import TodoLedger.Proofs.RoundTrip
import TodoLedger.Proofs.Workspace.Directories
import TodoLedger.Proofs.Document.Composition
import TodoLedger.Proofs.Gather.Effect
import TodoLedger.Proofs.Gather.Coverage
import TodoLedger.Proofs.Validation.Keys
import TodoLedger.Proofs.Sync.AtOnce
import TodoLedger.Proofs.Sync.Account
import TodoLedger.Proofs.Text.Standing
import TodoLedger.Proofs.Gather.Once
import TodoLedger.Proofs.Sync.Source
import TodoLedger.Proofs.Document.Parts
import TodoLedger.Proofs.Text.Reread
import TodoLedger.Proofs.Document.Added
import TodoLedger.Proofs.Patch.Failure
import TodoLedger.Proofs.Text.Order
import TodoLedger.Proofs.Workspace.Listing
import TodoLedger.Proofs.Backup.Retention
import TodoLedger.Proofs.Backup.Survival
import TodoLedger.Proofs.Backup.Naming
import TodoLedger.Proofs.Backup.Window
import TodoLedger.Proofs.Workspace.Script
import TodoLedger.Proofs.Gather.Script
import TodoLedger.Proofs.Gather.Stage
import TodoLedger.Proofs.Gather.Points
import TodoLedger.Proofs.Document.Lone
import TodoLedger.Proofs.Document.Refusal
import TodoLedger.Proofs.Gather.Refusal
import TodoLedger.Proofs.Text.CaseImage
import TodoLedger.Proofs.Document.Made
import TodoLedger.Proofs.Document.Rerendering
import TodoLedger.Proofs.Comment.Overlap
import TodoLedger.Proofs.Sync.Untouched
import TodoLedger.Proofs.Gather.DryRun
import TodoLedger.Proofs.Document.Title
import TodoLedger.Proofs.Patch.Shift
import TodoLedger.Proofs.Patch.CommentOut
import TodoLedger.Proofs.Glob
import TodoLedger.Proofs.Properties.History
import TodoLedger.Proofs.Text.Letter
import TodoLedger.Proofs.Document.WellFormed
import TodoLedger.Proofs.Discovery
import TodoLedger.Proofs.Comment.Canonical
import TodoLedger.Proofs.Patch.Gathered
import TodoLedger.Proofs.Text.WholeLines
import TodoLedger.Proofs.LineEnds
import TodoLedger.Proofs.Document.Calls
import TodoLedger.Proofs.Environment
