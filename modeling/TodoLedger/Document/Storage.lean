import TodoLedger.Document.Reader
import TodoLedger.Document.Writer
import TodoLedger.Workspace
/-!
# Documents as files

A document is only ever added to. What it holds already is neither read nor written again, so hand
edits survive.
-/

namespace TodoLedger

def endsLine (bytes : Bytes) : Bool :=
  match bytes.getLast? with
  | none => true
  | some b => b = 10 || b = 13

namespace Document

open Work

/-- The issues of the document at a path. -/
def load (path : Path) : Work (List Issue) := do
  if !(← isFile path) then throw (.documentMissing path)
  let text ← readText path
  match readDocument text with
  | .error f => throw (.read f)
  | .ok issues =>
    report (.documentRead path issues.length)
    return issues

/-- Adds the entries of issues at the end of a document, behind a line end. -/
def append (path : Path) (issues : List Issue) : Work Nat := do
  if issues.isEmpty then return 0
  ensureDirectories path.parent
  let old ← if ← pathExists path then readBytes path else pure []
  let separator : Text := if endsLine old then "" else "\n"
  appendText path (separator ++ issues.flatMap Issue.render)
  report (.issuesAppended path issues.length)
  return issues.length

/-- Creates an empty document unless something stands at the path; the answer says whether it
did. -/
def create (path : Path) : Work Bool := do
  if ← pathExists path then
    report (.documentPresent path)
    return false
  ensureDirectories path.parent
  writeBytes path []
  report (.documentCreated path)
  return true

end Document

end TodoLedger
