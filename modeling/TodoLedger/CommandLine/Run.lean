import TodoLedger.CommandLine.Log
import TodoLedger.CommandLine.Request
import TodoLedger.Gather
import TodoLedger.Settings.Load
import TodoLedger.Sync
import TodoLedger.Validation
/-!
# Running a request

A request loads the settings, opens the log and runs its command. A fault that a user can act on
becomes one line on the error output and the exit code 1.
-/

namespace TodoLedger

/-- The line that lists an issue. -/
def Issue.listing (i : Issue) : Text :=
  let tags : Text := if i.tags.isEmpty then [] else " " ++ Issue.tagGroup i.tags
  "  " ++ i.id ++ ": " ++ i.title ++ " (" ++ i.state.keyword ++ ") [" ++ i.priority.name ++ "]" ++
    tags

namespace Command

open Work

def printCount (label : Text) (n : Nat) : Work Unit :=
  printLine ("  " ++ label ++ ": " ++ Text.ofNat n)

def printAll : List Text → Work Unit
  | [] => return
  | t :: ts => do
    printLine t
    printAll ts

/-- Asks the user for a line; the end of the input is an empty answer. -/
def prompt (label : Text) : Work Text := do
  print label
  return Text.trim ((← readLine).getD [])

def runInit (document : Path) : Work Nat := do
  if ← Document.create document then
    printLine ("Initialized orgi repository at " ++ document.text)
  else printLine ("orgi repository already exists at " ++ document.text)
  return 0

def runList (document : Path) : Work Nat := do
  let issues ← try Document.load document
    catch fault => match fault with
      | .documentMissing _ => throw (.listedMissing document)
      | _ => throw fault
  printLine ("Found " ++ Text.ofNat issues.length ++ " issues:")
  printAll (issues.map Issue.listing)
  return 0

/-- The choice that was made, or the one that the user names when asked. Nobody is asked unless
`isAsking`. -/
def choose {α : Type} (isAsking : Bool) (chosen : Option α) (label : Text)
    (read? : Text → Option α) (fallback : α) : Work α := do
  match chosen with
  | some a => return a
  | none =>
    if isAsking then return (read? (← prompt label)).getD fallback else return fallback

def runAdd (document : Path) (d : Proposal) : Work Nat := do
  let isAsking := d.title.isNone
  let title ← match d.title with
    | some t => pure t
    | none => prompt "Title: "
  if Text.isBlank title then
    printError "Error: Title is required."
    return 1
  let priority ← choose isAsking d.priority "Priority (A/B/C/None): " Priority.ofName? .none
  let state ← choose isAsking d.state "State (TODO/INPROGRESS/DONE/KILL): "
    (fun t => State.ofKeyword? (Text.upper t)) .todo
  let tags ← choose isAsking d.tags "Tags (comma-separated): " some []
  let now ← now
  match newIssue title priority state (Text.splitAt ',' tags) d.body now with
  | .error f => throw (.title f)
  | .ok issue =>
    let _ ← Document.append document [issue]
    report (.issueAdded issue.id document)
    printLine ("Added issue " ++ issue.id)
    return 0

def printErrors : List Text → Work Unit
  | [] => return
  | t :: ts => do
    printError t
    printErrors ts

def runGather (settings : Settings) (directory document : Path) (dryRun : Bool) : Work Nat := do
  let g ← Gather.run settings directory document dryRun none
  printLine (if dryRun then "Dry run, nothing written:" else
    "Gathered into " ++ document.text ++ ":")
  printCount "Source files scanned" g.scanned
  printCount "TODOs found" g.found
  printCount "Existing issues" g.existing
  printCount "Matched issues" g.matched
  if dryRun then printCount "New issues to create" g.unmatched
  else
    printCount "New issues created" g.newIssues.length
    printCount "Files modified" g.modified
  printAll (g.newIssues.map Issue.listing)
  printErrors (g.failures.map fun p => "Warning: " ++ p.path.text ++ ": " ++ p.message)
  return 0

def patchLine (p : Patch) : Text :=
  (if p.isChange then "Removed: " else "Failed: ") ++ p.path.text ++ ": " ++ p.message

def runSync (settings : Settings) (document : Path) (acceptAll : Bool) : Work Nat := do
  let s ← Sync.run settings document (if acceptAll then .auto else .user)
  printAll (s.patches.map patchLine)
  printLine "Sync complete:"
  printCount "Issues checked" s.checked
  printCount "Completed source issues" s.completed
  printCount "TODOs removed" s.removed
  printCount "TODOs skipped" s.skipped
  printCount "Files modified" s.modified
  return 0

/-- Findings make the exit code 1. Tasks that are gone are shown first. -/
def runValidate (settings : Settings) (directory document : Path) : Work Nat := do
  let findings ← Validation.run settings directory document none
  if findings.isEmpty then
    printLine "Source TODOs and issues are in sync."
    return 0
  printLine ("Found " ++ Text.ofNat findings.length ++ " sync problems:")
  printAll ((findings.filter Finding.isTaskMissing ++
    findings.filter fun f => !f.isTaskMissing).map fun f => "  " ++ f.message)
  return 1

/-- Runs a command; the answer is the exit code. -/
def run (settings : Settings) : Command → Work Nat
  | init document => runInit (document.getD settings.document)
  | list document => runList (document.getD settings.document)
  | add document proposal => runAdd (document.getD settings.document) proposal
  | gather directory document dryRun =>
    runGather settings directory (document.getD settings.document) dryRun
  | sync document acceptAll => runSync settings (document.getD settings.document) acceptAll
  | validate directory document =>
    runValidate settings directory (document.getD settings.document)

end Command

/-- A fault that a user can act on. The others are faults of the program itself. -/
def Fault.isShown : Fault → Bool
  | .entry .noId | .noKey | .fixedId | .keyNoText | .anchoredPattern => false
  | _ => true

/-- What a request leaves behind besides what it printed. -/
structure Finish where
  exitCode : Nat
  log : List LogLine

namespace Request

open Work

/-- The result of an operation, or its fault, with the events that it reported. -/
def recorded {α : Type} (a : Work α) : Work (Except Fault α × List Event) :=
  ExceptT.mk fun w =>
    let (result, after) := a.run.run { w with events := [] }
    (.ok (result, after.events), { after with events := w.events })

/-- Opens the log file, if there is to be one. A fault of the system is only shown. -/
def openLog (s : LogSettings) : Work (Option Path) := do
  if !s.fileEnabled then return none
  try
    ensureDirectories s.filePath.parent
    let file := Path.absolute (s.filePath.resolve (← cwd))
    appendText file []
    return some file
  catch fault => match fault with
    | .file f =>
      printError ("Could not create log file " ++ s.filePath.text ++ ": " ++ f.message)
      return none
    | _ => throw fault

/-- Adds lines to the log file; a line that has no written form is left out. -/
def writeLog (file : Option Path) (lines : List LogLine) : Work Unit := do
  match file with
  | none => return
  | some file =>
    let now := (← get).clock
    let written := lines.filterMap fun l => (Utf8.encode (l.render now ++ "\n")).toOption
    writeBytes file ((← readBytes file) ++ written.flatten)

/-- What is reported and shown for a fault. -/
def failure (fault : Fault) : Event := .commandFailed fault.message fault.kind

/-- Loads the settings and opens the log. -/
def prepare (r : Request) : Work (Settings × Option Path) := do
  let settings ← Settings.load r.settings
  report (.settingsLoaded r.settings)
  return (settings, ← openLog settings.logging)

/-- Ends a request with a fault. -/
def fail (fault : Fault) (log : List LogLine) : Work Finish := do
  if fault.isShown then
    printError ("Error: " ++ fault.message)
    return ⟨1, log⟩
  else throw fault

/-- Runs a request. -/
def run (r : Request) : Work Finish := do
  let first := Logger.initial r.isDebug r.format
  let (prepared, events) ← recorded r.prepare
  match prepared with
  | .error fault =>
    fail fault (first.lines (if fault.isShown then events ++ [failure fault] else events))
  | .ok (settings, file) =>
    let early := first.lines events
    let logger := first.configure r.isDebug r.format settings.logging r.command.name
    let (result, events) ← recorded do
      report .commandStarted
      r.command.run settings
    match result with
    | .ok exitCode =>
      let lines := logger.lines events
      writeLog file lines
      return ⟨exitCode, early ++ lines⟩
    | .error fault =>
      let lines := logger.lines (if fault.isShown then events ++ [failure fault] else events)
      writeLog file lines
      fail fault (early ++ lines)

end Request

end TodoLedger
