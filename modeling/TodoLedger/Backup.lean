import TodoLedger.Sorted
import TodoLedger.Workspace
/-!
# Backups

Before a source file is changed it is copied into a backup directory under its name and a stamp of
the time. Of each name the latest copies are kept.
-/

namespace TodoLedger

/-- Where backups go and how many are kept of each file name. -/
structure Backups where
  directory : Path
  kept : Nat

namespace Backups

open Work

/-- The directory of backups in the working directory. -/
def defaultDirectory : Path := ⟨.relative, [".orgi", "backups"]⟩

def defaultKept : Int := 10

/-- At least one backup is kept. Without a directory of its own a policy uses the default one. -/
def make? (cwd : Place) (directory : Option Path) (kept : Int) : Except Fault Backups :=
  if kept < 1 then .error .noBackupsKept
  else .ok ⟨directory.getD ((Path.absolute cwd).join defaultDirectory), kept.toNat⟩

def stampOf (moment : DateTime) : Text :=
  moment.dateDigits ++ "-" ++ moment.timeDigits ++ "-" ++ Text.padded 6 moment.micro

/-- What the names of all backups of a file begin with. -/
def stem (name : Text) : Text := name ++ ".backup-"

def backupPath (b : Backups) (name : Text) (moment : DateTime) : Path :=
  b.directory.child (stem name ++ stampOf moment)

/-- The elements of a list of texts in descending order. -/
def descending (names : List Text) : List Text := sorted (fun a b => Text.le b a) names

/-- The backups of a file name, latest first. -/
def existing (b : Backups) (name : Text) : Work (List Path) := do
  let pattern := Path.ofText (stem name)
  if pattern.anchor ≠ .relative then throw .anchoredPattern
  let directory := b.directory.join pattern.parent
  if ← isDirectory directory then
    let w ← get
    let place ← ask (·.locate directory)
    let names := (w.tree.children place).map Prod.fst
    return (descending (names.filter fun n => Text.startsWith n pattern.name)).map directory.child
  else return []

/-- Deletes files, reporting those that resist. -/
def deleteAll : List Path → Work Unit
  | [] => return
  | p :: ps => do
    try deleteFile p
    catch fault => match fault with
      | .file _ => report (.pruneFailed p.text fault.message)
      | _ => throw fault
    deleteAll ps

/-- Deletes all but the latest backups of a file name. -/
def prune (b : Backups) (name : Text) : Work Unit := do
  let old ← try (do return (← b.existing name).drop b.kept)
    catch fault => match fault with
      | .file _ =>
        report (.pruneFailed name fault.message)
        pure []
      | _ => throw fault
  deleteAll old

/-- Copies a file to a path, or into the directory at that path, but not onto itself. -/
def copy (source target : Path) : Work Unit := do
  let target := if ← isDirectory target then target.child source.name else target
  if (← get).areSame source target then throw (.file ⟨.sameFile source, target⟩)
  else writeBytes target (← readBytes source)

/-- Backs a file up. -/
def create (b : Backups) (source : Path) : Work Path := do
  ensureDirectories b.directory
  let backup := b.backupPath source.name (← now)
  copy source backup
  report (.backupCreated source backup)
  b.prune source.name
  return backup

end Backups

end TodoLedger
