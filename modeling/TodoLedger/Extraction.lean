import TodoLedger.Comment.Task
import TodoLedger.Workspace
/-!
# Extraction

The tasks of source files.
-/

namespace TodoLedger.Extraction

open Work

/-- The tasks of a file. -/
def ofFile (withMarked : Bool) (path : Path) : Work (List Task) := do
  if !(← isFile path) then throw (.sourceMissing path)
  return tasksOf path withMarked (← readText path)

/-- The tasks of a file, or none if it cannot be read. -/
def ofFileOrNone (withMarked : Bool) (path : Path) : Work (List Task) := do
  try ofFile withMarked path
  catch fault =>
    if fault.isReported then
      report (.extractionFailed path fault.message fault.kind)
      pure []
    else throw fault

/-- The tasks of several files, file after file. -/
def ofFiles (withMarked : Bool) (paths : List Path) : Work (List Task) := do
  let tasks := (← paths.mapM (ofFileOrNone withMarked)).flatten
  report (.tasksExtracted tasks.length)
  return tasks

end TodoLedger.Extraction
