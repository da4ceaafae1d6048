import TodoLedger.Document.Storage
import TodoLedger.Extraction
import TodoLedger.Link
import TodoLedger.Patch
import TodoLedger.Settings
/-!
# Gathering

Tasks that no issue points at become issues. The issues are written before the tasks are marked, so
that a marker never names an issue that is not in the document.
-/

namespace TodoLedger

/-- What a gather run did. -/
structure Gathered where
  scanned : Nat
  found : Nat
  existing : Nat
  unmatched : Nat
  dryRun : Bool
  newIssues : List Issue
  patches : List Patch

namespace Gathered

def matched (g : Gathered) : Nat := g.found - g.unmatched

def modified (g : Gathered) : Nat := Patch.changedFiles g.patches

def failures (g : Gathered) : List Patch := g.patches.filter Patch.isFailure

def counts (g : Gathered) : GatherCounts where
  scanned := g.scanned
  found := g.found
  existing := g.existing
  matched := g.matched
  created := g.newIssues.length
  modified := g.modified
  dryRun := g.dryRun

end Gathered

namespace Gather

open Work

/-- The issues that the document holds already; a missing or broken document holds none. -/
def existingIssues (document : Path) : Work (List Issue) := do
  if !(← isFile document) then
    report (.documentMissing document)
    return []
  try Document.load document
  catch fault => match fault with
    | .read (.document line _) =>
      report (.documentRefused document fault.message line)
      pure []
    | _ => throw fault

/-- The issue of a task, with a token of its own. -/
def issueFor (settings : Settings) (now : DateTime) (task : Task) : Work (Task × Issue) := do
  let token ← nextToken
  let cwd ← cwd
  match Issue.ofTask cwd task token now settings.titleLimit with
  | .ok issue => return (task, issue)
  | .error f => throw (.encoding f)

/-- Marks the line of a task with the id of its issue. -/
def mark (b : Backups) (task : Task) (issue : Issue) : Work Patch := do
  try Patch.apply b task.path (.insertMarker task issue.id)
  catch fault => match fault with
    | .sourceMissing _ =>
      report (.markingFailed task.path fault.message)
      pure ⟨task.path, .failed, fault.message⟩
    | _ => throw fault

/-- The tasks of a directory's files, and the number of these files. -/
def scan (settings : Settings) (withMarked : Bool) (directory : Path)
    (given : Option (List Task)) : Work (Nat × List Task) := do
  let files ← discover directory settings.selection
  match given with
  | some tasks => return (files.length, tasks)
  | none => return (files.length, ← Extraction.ofFiles withMarked files)

/-- Makes issues of tasks, writes them to the document and marks the tasks. -/
def collect (settings : Settings) (b : Backups) (document : Path) (tasks : List Task) :
    Work (List Issue × List Patch) := do
  let now ← now
  let pairs ← tasks.mapM (issueFor settings now)
  let _ ← Document.append document (pairs.map Prod.snd)
  let patches ← pairs.mapM fun (task, issue) => mark b task issue
  return (pairs.map Prod.snd, patches)

/-- The end of a run. -/
def conclude (result : Gathered) : Work Gathered := do
  report (.gatherCompleted result.counts)
  return result

/-- Makes issues of the tasks of a directory that have none. Tasks that are given stand in for the
ones that would be found. -/
def run (settings : Settings) (directory document : Path) (dryRun : Bool)
    (given : Option (List Task)) : Work Gathered := do
  let b ← ask fun w => settings.backups w.cwd
  if !(← isDirectory directory) then throw (.sourceDirectoryMissing directory)
  report (.gatherStarted directory dryRun)
  let (scanned, tasks) ← scan settings false directory given
  let existing ← existingIssues document
  let cwd ← cwd
  let unmatched := tasks.filter fun t => !t.isKnown cwd existing
  let result : Gathered :=
    { scanned, found := tasks.length, existing := existing.length, unmatched := unmatched.length,
      dryRun, newIssues := [], patches := [] }
  if dryRun || unmatched.isEmpty then conclude result
  else
    let (newIssues, patches) ← collect settings b document unmatched
    conclude { result with newIssues, patches }

end Gather

end TodoLedger
