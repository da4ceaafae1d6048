import TodoLedger.Document.Storage
import TodoLedger.Gather
/-!
# Validation

The drift between the tasks in source files and the issues that point at source files: issues whose
task is gone, and tasks that no issue points at.
-/

namespace TodoLedger

inductive Finding
  | taskMissing (issue : Issue)
  | issueMissing (task : Task) (file : Text)
deriving DecidableEq

namespace Finding

def isTaskMissing : Finding → Bool
  | taskMissing _ => true
  | issueMissing .. => false

def kind : Finding → Text
  | taskMissing _ => "source_todo_missing"
  | issueMissing .. => "orgi_issue_missing"

def message : Finding → Text
  | taskMissing i =>
    "TODO at " ++ i.sourceFile?.getD "None" ++ ":" ++
      Text.ofNat (i.sourceLine?.getD 0) ++ " was removed from source but issue " ++ i.id ++
      " still exists"
  | issueMissing t file =>
    "TODO at " ++ file ++ ":" ++ Text.ofInt t.line ++ " has no corresponding issue"

end Finding

namespace Validation

/-- The findings about some tasks and the issues that point at source files, issues first. -/
def findings (cwd : Place) (tasks : List Task) (linked : List Issue) : List Finding :=
  (linked.filter fun i => !tasks.any fun t => t.isKnown cwd [i]).map .taskMissing ++
  (tasks.filter fun t => !t.isKnown cwd linked).map fun t => .issueMissing t (t.file cwd)

open Work

/-- Compares the tasks of a directory with a document. -/
def run (settings : Settings) (directory document : Path) (given : Option (List Task)) :
    Work (List Finding) := do
  let _ ← ask fun w => settings.backups w.cwd
  if !(← isDirectory directory) then throw (.sourceDirectoryMissing directory)
  if !(← isFile document) then throw (.documentMissing document)
  let (_, tasks) ← Gather.scan settings true directory given
  let linked := (← Document.load document).filter Issue.isLinked
  let found := findings (← cwd) tasks linked
  report (.validationCompleted found.isEmpty found.length)
  return found

end Validation

end TodoLedger
