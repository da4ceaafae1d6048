import TodoLedger.Workspace
/-!
# Snapshots

A tree that is built from the contents of files, and what a run changed in it.
-/

namespace TodoLedger

namespace Tree

def empty : Tree := ⟨[]⟩

/-- The tree with the directories on the way from one place further down. -/
def addDirectoriesFrom (t : Tree) (start : Place) : List Text → Tree
  | [] => t
  | s :: rest =>
    let place := start ++ [s]
    let t := if (t.find? place).isSome then t else t.put place .directory
    t.addDirectoriesFrom place rest

/-- The tree with a directory and the directories above it. -/
def addDirectories (t : Tree) (place : Place) : Tree := t.addDirectoriesFrom [] place

/-- The tree with a file and the directories above it. -/
def addFile (t : Tree) (place : Place) (content : Bytes) : Tree :=
  (t.addDirectories place.dropLast).put place (.file content)

def files (t : Tree) : List (Place × Bytes) := t.nodes.filterMap fun
  | (place, .file content) => some (place, content)
  | _ => none

def directories (t : Tree) : List Place := t.nodes.filterMap fun
  | (place, .directory) => some place
  | _ => none

/-- The files that are new or have new content. -/
def written (before after : Tree) : List (Place × Bytes) :=
  after.files.filter fun f => before.find? f.1 ≠ some (.file f.2)

/-- The places of the files that are gone. -/
def removed (before after : Tree) : List Place :=
  (before.files.map Prod.fst).filter fun place => !after.isFile place

/-- The directories that are new. -/
def created (before after : Tree) : List Place :=
  after.directories.filter fun place => !before.isDirectory place

end Tree

end TodoLedger
