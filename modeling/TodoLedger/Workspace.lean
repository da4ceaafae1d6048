import TodoLedger.Calendar
import TodoLedger.Event
import TodoLedger.Fault
/-!
# The workspace

The state that operations act on: a tree of files, a working directory, a clock that moves on at
every reading, a supply of random numbers, the environment, and what was reported and printed. An
operation that fails keeps what it had changed before.
-/

namespace TodoLedger

/-- A place in the tree, as the names on the way from the root. -/
abbrev Place := List Text

inductive Node
  | directory
  | file (content : Bytes)
deriving DecidableEq

/-- The files and directories below the root. -/
structure Tree where
  nodes : List (Place × Node)

namespace Tree

def find? (t : Tree) (place : Place) : Option Node :=
  if place.isEmpty then some .directory else t.nodes.lookup place

def putNode (place : Place) (node : Node) : List (Place × Node) → List (Place × Node)
  | [] => [(place, node)]
  | e :: es => if e.1 = place then (place, node) :: es else e :: putNode place node es

/-- The tree with a node at a place, in the stead of the one that was there. -/
def put (t : Tree) (place : Place) (node : Node) : Tree := ⟨putNode place node t.nodes⟩

def remove (t : Tree) (place : Place) : Tree := ⟨t.nodes.filter fun e => e.1 ≠ place⟩

def isDirectory (t : Tree) (place : Place) : Bool := t.find? place = some .directory

def isFile (t : Tree) (place : Place) : Bool :=
  match t.find? place with
  | some (.file _) => true
  | _ => false

/-- The names in a directory with what they stand for. -/
def children (t : Tree) (place : Place) : List (Text × Node) :=
  t.nodes.filterMap fun e =>
    match Path.below? place e.1 with
    | some [name] => some (name, e.2)
    | _ => none

def maxNameBytes : Nat := 255

def nameBytes (name : Text) : Nat := (name.flatMap Utf8.encodeRune).length

/-- Follows segments from a place; all but the last must be directories. -/
def walk (t : Tree) (place : Place) : List Text → Except FileCause Place
  | [] => .ok place
  | s :: rest =>
    match t.find? place with
    | none => .error .notFound
    | some (.file _) => .error .notDirectory
    | some .directory =>
      if s = dotDot then t.walk place.dropLast rest
      else if maxNameBytes < nameBytes s then .error .nameTooLong
      else t.walk (place ++ [s]) rest

end Tree

structure Workspace where
  tree : Tree
  cwd : Place
  clock : DateTime
  /-- How many random numbers have been drawn. -/
  tokens : Nat
  environment : List (Text × Text)
  input : Text
  output : Text
  errors : Text
  events : List Event
  /-- The random numbers in the order in which they are drawn; any of them may come again. Where none
  are given they are counted. -/
  random : Nat → UInt32 := UInt32.ofNat

/-- An operation on the workspace, which can fail. -/
abbrev Work := ExceptT Fault (StateM Workspace)

namespace Workspace

/-- The token that is drawn behind `n` others: a random number of 32 bits in eight hexadecimal
digits. -/
def token (w : Workspace) (n : Nat) : Text := Text.hex 8 (w.random (w.tokens + n)).toNat

/-- The place that a path names, or why it names none. -/
def locate (w : Workspace) (p : Path) : Except Fault Place :=
  match Utf8.encode p.text with
  | .error f => .error (.encoding f)
  | .ok _ =>
    if p.text.contains (Rune.ofNat 0) then .error .nullByte
    else match w.tree.walk (if p.anchor = .relative then w.cwd else []) p.segments with
      | .ok place => .ok place
      | .error cause => .error (.file ⟨cause, p⟩)

/-- What stands at a path; nothing stands at a path that names no place. -/
def node? (w : Workspace) (p : Path) : Except Fault (Option Node) :=
  match w.locate p with
  | .ok place => .ok (w.tree.find? place)
  | .error (.file ⟨.nameTooLong, p⟩) => .error (.file ⟨.nameTooLong, p⟩)
  | .error _ => .ok none

/-- The content of the file at a path. -/
def content (w : Workspace) (p : Path) : Except Fault Bytes := do
  let place ← w.locate p
  match w.tree.find? place with
  | none => .error (.file ⟨.notFound, p⟩)
  | some .directory => .error (.file ⟨.isDirectory, p⟩)
  | some (.file bytes) => .ok bytes

/-- The paths lead to one and the same thing. -/
def areSame (w : Workspace) (p q : Path) : Bool :=
  match w.locate p, w.locate q with
  | .ok place, .ok place' => place = place' && (w.tree.find? place).isSome
  | _, _ => false

/-- The workspace with other content in the file at a path, which is created if it is missing. -/
def withContent (w : Workspace) (p : Path) (bytes : Bytes) : Except Fault Workspace := do
  let place ← w.locate p
  if w.tree.isDirectory place then .error (.file ⟨.isDirectory, p⟩)
  else if !w.tree.isDirectory place.dropLast then .error (.file ⟨.notFound, p⟩)
  else .ok { w with tree := w.tree.put place (.file bytes) }

/-- The workspace with a new directory. -/
def withDirectory (w : Workspace) (p : Path) : Except Fault Workspace := do
  let place ← w.locate p
  if (w.tree.find? place).isSome then .error (.file ⟨.alreadyExists, p⟩)
  else .ok { w with tree := w.tree.put place .directory }

/-- The workspace without the file at a path. -/
def withoutFile (w : Workspace) (p : Path) : Except Fault Workspace := do
  let place ← w.locate p
  match w.tree.find? place with
  | none => .error (.file ⟨.notFound, p⟩)
  | some .directory => .error (.file ⟨.isDirectory, p⟩)
  | some (.file _) => .ok { w with tree := w.tree.remove place }

end Workspace

namespace Work

def report (e : Event) : Work Unit := modify fun w => { w with events := w.events ++ [e] }

def print (t : Text) : Work Unit := modify fun w => { w with output := w.output ++ t }

def printLine (t : Text) : Work Unit := print (t ++ "\n")

def printError (t : Text) : Work Unit :=
  modify fun w => { w with errors := w.errors ++ t ++ "\n" }

/-- The time; the clock moves on by a microsecond. -/
def now : Work DateTime :=
  modifyGet fun w => (w.clock, { w with clock := w.clock.next })

def nextToken : Work Text :=
  modifyGet fun w => (w.token 0, { w with tokens := w.tokens + 1 })

/-- An answer that leaves the workspace as it is. -/
def ask {α : Type} (f : Workspace → Except Fault α) : Work α := do
  liftExcept (f (← get))
where
  liftExcept {α : Type} : Except Fault α → Work α
  | .ok a => pure a
  | .error f => throw f

/-- A change that happens as a whole or not at all. -/
def change (f : Workspace → Except Fault Workspace) : Work Unit := do
  set (← ask f)

def cwd : Work Place := do return (← get).cwd

def node? (p : Path) : Work (Option Node) := ask (·.node? p)

def isFile (p : Path) : Work Bool := do
  match ← node? p with
  | some (.file _) => return true
  | _ => return false

def isDirectory (p : Path) : Work Bool := do return (← node? p) = some .directory

def pathExists (p : Path) : Work Bool := do return (← node? p).isSome

def readBytes (p : Path) : Work Bytes := ask (·.content p)

def writeBytes (p : Path) (bytes : Bytes) : Work Unit := change (·.withContent p bytes)

/-- The text of a file, undecodable bytes kept. -/
def readText (p : Path) : Work Text := do return Utf8.decode (← readBytes p)

/-- Replaces the text of a file. The file is emptied before its new text is encoded. -/
def writeText (p : Path) (t : Text) : Work Unit := do
  writeBytes p []
  match Utf8.encode t with
  | .ok bytes => writeBytes p bytes
  | .error f => throw (.encoding f)

/-- Adds to the end of a file. The file is created before the text is encoded. -/
def appendText (p : Path) (t : Text) : Work Unit := do
  let old ← if ← isFile p then readBytes p else pure []
  writeBytes p old
  match Utf8.encode t with
  | .ok bytes => writeBytes p (old ++ bytes)
  | .error f => throw (.encoding f)

def deleteFile (p : Path) : Work Unit := change (·.withoutFile p)

/-- Makes a directory unless it is there. -/
def ensureDirectory (p : Path) : Work Unit := do
  try change (·.withDirectory p)
  catch fault =>
    match fault with
    | .file ⟨.notFound, _⟩ => throw fault
    | .file _ => if ← isDirectory p then pure () else throw fault
    | _ => throw fault

/-- Makes a directory and the directories above it, as far as they are missing. -/
def ensureDirectories (p : Path) : Work Unit := do
  try ensureDirectory p
  catch fault =>
    match fault with
    | .file ⟨.notFound, _⟩ =>
      if _h : p.segments = [] then throw fault
      else do
        ensureDirectories p.parent
        ensureDirectory p
    | _ => throw fault
termination_by p.segments.length
decreasing_by
  have := List.length_pos_iff.mpr _h
  simp [Path.parent]
  omega

/-- The next line of the input without its line feed, or nothing at its end. -/
def readLine : Work (Option Text) := do
  let w ← get
  if w.input.isEmpty then return none
  else
    let line := w.input.takeWhile fun c => c ≠ Rune.ofChar '\n'
    set { w with input := w.input.drop (line.length + 1) }
    return some line

end Work

end TodoLedger
