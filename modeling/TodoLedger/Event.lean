import TodoLedger.Path
/-!
# Events

What the operations report while they run. Each event has a name, a severity, the component that
reports it and named values.
-/

namespace TodoLedger

inductive Severity
  | debug
  | info
  | warning
  | error
  | critical
deriving DecidableEq

namespace Severity

def rank : Severity → Nat
  | debug => 10
  | info => 20
  | warning => 30
  | error => 40
  | critical => 50

def name : Severity → Text
  | debug => "debug"
  | info => "info"
  | warning => "warning"
  | error => "error"
  | critical => "critical"

end Severity

/-- What a gather run counted. -/
structure GatherCounts where
  scanned : Nat
  found : Nat
  existing : Nat
  matched : Nat
  created : Nat
  modified : Nat
  dryRun : Bool
deriving DecidableEq

/-- What a sync run counted. -/
structure SyncCounts where
  checked : Nat
  completed : Nat
  removed : Nat
  skipped : Nat
  modified : Nat
deriving DecidableEq

/-- A change that is made to one line of a source file. -/
inductive Operation
  | insertMarker
  | removeLine
  | commentOut
deriving DecidableEq

def Operation.name : Operation → Text
  | insertMarker => "insert identity"
  | removeLine => "remove line"
  | commentOut => "comment out line"

inductive Event
  | settingsLoaded (path : Option Path)
  | commandStarted
  | commandFailed (message kind : Text)
  | documentRead (path : Path) (issues : Nat)
  | documentMissing (path : Path)
  | documentRefused (path : Path) (message : Text) (line : Int)
  | documentPresent (path : Path)
  | documentCreated (path : Path)
  | issuesAppended (path : Path) (count : Nat)
  | issueAdded (id : Text) (path : Path)
  | fileExcluded (name : Text)
  | filesDiscovered (path : Path) (count : Nat)
  | extractionFailed (path : Path) (message kind : Text)
  | tasksExtracted (count : Nat)
  | backupCreated (path backup : Path)
  | pruneFailed (file message : Text)
  | editApplied (path : Path) (operation : Operation)
  | editUnchanged (path : Path) (operation : Operation)
  | editFailed (path : Path) (operation : Operation) (message kind : Text)
  | markingFailed (path : Path) (message : Text)
  | gatherStarted (directory : Path) (dryRun : Bool)
  | gatherCompleted (counts : GatherCounts)
  | syncStarted (path : Path) (auto : Bool)
  | targetMissing (path : Path) (issueId : Text)
  | targetRepeated (path : Path) (line : Nat) (issueId : Text)
  | syncCompleted (counts : SyncCounts)
  | validationCompleted (isValid : Bool) (findings : Nat)

inductive EventValue
  | none
  | flag (b : Bool)
  | number (n : Int)
  | text (t : Text)
deriving DecidableEq

namespace Event

def name : Event → String
  | settingsLoaded _ => "configuration_loaded"
  | commandStarted => "command_started"
  | commandFailed .. => "command_failed"
  | documentRead .. => "org_file_parsed"
  | documentMissing _ => "org_document_missing"
  | documentRefused .. => "org_parse_failed"
  | documentPresent _ => "org_document_exists"
  | documentCreated _ => "org_document_initialized"
  | issuesAppended .. => "org_issues_appended"
  | issueAdded .. => "org_issue_added"
  | fileExcluded _ => "source_file_excluded"
  | filesDiscovered .. => "source_files_discovered"
  | extractionFailed .. => "source_file_extract_failed"
  | tasksExtracted _ => "source_todos_extracted"
  | backupCreated .. => "source_backup_created"
  | pruneFailed .. => "backup_prune_failed"
  | editApplied .. => "source_rewrite_applied"
  | editUnchanged .. => "source_rewrite_unchanged"
  | editFailed .. | markingFailed .. => "source_rewrite_failed"
  | gatherStarted .. => "gather_started"
  | gatherCompleted _ => "gather_completed"
  | syncStarted .. => "sync_started"
  | targetMissing .. => "sync_source_missing"
  | targetRepeated .. => "sync_duplicate_target"
  | syncCompleted _ => "sync_completed"
  | validationCompleted .. => "validate_completed"

def severity : Event → Severity
  | settingsLoaded _ | commandStarted | commandFailed .. | documentRead .. | documentMissing _
  | documentPresent _ | fileExcluded _ | filesDiscovered .. | tasksExtracted _
  | backupCreated .. => .debug
  | documentRefused .. | extractionFailed .. | pruneFailed .. | editFailed .. | markingFailed ..
  | targetMissing .. | targetRepeated .. => .warning
  | _ => .info

/-- The part of the program that reports an event. -/
inductive Component
  | command
  | reader
  | writer
  | discovery
  | extractor
  | patcher
  | synchronizer
deriving DecidableEq

def Component.name : Component → String
  | command => "orgi.__main__"
  | reader => "orgi.core.org_parser"
  | writer => "orgi.core.org_writer"
  | discovery => "orgi.core.file_discovery"
  | extractor => "orgi.core.todo_extractor"
  | patcher => "orgi.core.source_rewriter"
  | synchronizer => "orgi.core.synchronizer"

def component : Event → Component
  | settingsLoaded _ | commandStarted | commandFailed .. | issueAdded .. => .command
  | documentRead .. => .reader
  | documentPresent _ | documentCreated _ | issuesAppended .. => .writer
  | fileExcluded _ | filesDiscovered .. => .discovery
  | extractionFailed .. | tasksExtracted _ => .extractor
  | backupCreated .. | pruneFailed .. | editApplied .. | editUnchanged .. | editFailed .. =>
    .patcher
  | documentMissing _ | documentRefused .. | markingFailed .. | gatherStarted ..
  | gatherCompleted _ | syncStarted .. | targetMissing .. | targetRepeated .. | syncCompleted _
  | validationCompleted .. => .synchronizer

def shown (p : Path) : EventValue := .text p.text

def count (n : Nat) : EventValue := .number n

/-- The named values of an event. -/
def values : Event → List (String × EventValue)
  | settingsLoaded path => [("path", (path.map shown).getD .none)]
  | commandStarted => []
  | commandFailed message kind => [("error", .text message), ("error_type", .text kind)]
  | documentRead path issues => [("path", shown path), ("issues", count issues)]
  | documentMissing path | documentPresent path | documentCreated path => [("path", shown path)]
  | documentRefused path message line =>
    [("path", shown path), ("error", .text message), ("line_number", .number line)]
  | issuesAppended path n => [("path", shown path), ("count", count n)]
  | issueAdded id path => [("issue_id", .text id), ("path", shown path)]
  | fileExcluded name => [("path", .text name)]
  | filesDiscovered path n => [("path", shown path), ("count", count n)]
  | extractionFailed path message kind =>
    [("path", shown path), ("error", .text message), ("error_type", .text kind)]
  | tasksExtracted n => [("count", count n)]
  | backupCreated path backup => [("path", shown path), ("backup", shown backup)]
  | pruneFailed file message => [("file", .text file), ("error", .text message)]
  | editApplied path operation | editUnchanged path operation =>
    [("path", shown path), ("operation", .text operation.name)]
  | editFailed path operation message kind =>
    [("path", shown path), ("operation", .text operation.name), ("error", .text message),
      ("error_type", .text kind)]
  | markingFailed path message => [("path", shown path), ("error", .text message)]
  | gatherStarted directory dryRun =>
    [("source_dir", shown directory), ("dry_run", .flag dryRun)]
  | gatherCompleted c =>
    [("source_files_scanned", count c.scanned), ("todos_found", count c.found),
      ("existing_issues", count c.existing), ("matched_issues", count c.matched),
      ("new_issues_created", count c.created), ("files_modified", count c.modified),
      ("dry_run", .flag c.dryRun)]
  | syncStarted path auto => [("path", shown path), ("auto_confirm", .flag auto)]
  | targetMissing path issueId => [("path", shown path), ("issue_id", .text issueId)]
  | targetRepeated path line issueId =>
    [("path", shown path), ("line", count line), ("issue_id", .text issueId)]
  | syncCompleted c =>
    [("total_issues_checked", count c.checked), ("completed_source_issues", count c.completed),
      ("todos_removed", count c.removed), ("todos_skipped", count c.skipped),
      ("files_modified", count c.modified)]
  | validationCompleted isValid findings =>
    [("is_valid", .flag isValid), ("findings", count findings)]

end Event

end TodoLedger
