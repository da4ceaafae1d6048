import TodoLedger.Backup
import TodoLedger.Edit
/-!
# Patching source files

An edit is applied to a file behind a backup. Faults on the way are part of the answer, except that
the file is missing.
-/

namespace TodoLedger

inductive Outcome
  | applied
  | unchanged
  | failed
deriving DecidableEq

def Outcome.name : Outcome → Text
  | applied => "applied"
  | unchanged => "unchanged"
  | failed => "failed"

/-- What became of an edit. -/
structure Patch where
  path : Path
  outcome : Outcome
  message : Text
deriving DecidableEq

namespace Patch

open Work

def isChange (p : Patch) : Bool := p.outcome = .applied

def isFailure (p : Patch) : Bool := p.outcome = .failed

/-- The number of files that some of the patches changed. -/
def changedFiles (patches : List Patch) : Nat :=
  (distinct ((patches.filter isChange).map Patch.path)).length

/-- Applies an edit to a file that is there. -/
def attempt (b : Backups) (path : Path) (e : Edit) : Work Patch := do
  let text ← readText path
  match ← ask fun _ => e.apply path (Text.lines text) with
  | .unchanged message =>
    report (.editUnchanged path e.operation)
    return ⟨path, .unchanged, message⟩
  | .changed lines message =>
    let _ ← b.create path
    writeText path (Text.ofLines lines)
    return ⟨path, .applied, message⟩

/-- Applies an edit to a file. -/
def apply (b : Backups) (path : Path) (e : Edit) : Work Patch := do
  if !(← isFile path) then throw (.sourceMissing path)
  try
    let patch ← attempt b path e
    if patch.isChange then report (.editApplied path e.operation)
    pure patch
  catch fault =>
    if fault.isReported then
      report (.editFailed path e.operation fault.message fault.kind)
      pure ⟨path, .failed, "Failed to " ++ e.operation.name ++ ": " ++ fault.message⟩
    else throw fault

end Patch

end TodoLedger
