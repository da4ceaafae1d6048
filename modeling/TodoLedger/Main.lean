import Std.Time
import TodoLedger.CommandLine.Run
import TodoLedger.CommandLine.Usage
import TodoLedger.Snapshot
/-!
# The command line

Reads the files, the environment, the time and the input that a request may look at, runs the
request on them and writes back what it changed.

Directories are not searched here. The source files and the backups that a request may look at are
those named, one a line, in the listing `.orgi/files`, which names made and deleted files afterwards
as well. The document, the settings and the log need not be listed.
-/

namespace TodoLedger

namespace Main

/-- Where the files of the tree are listed. -/
def listing : Path := ⟨.relative, [".orgi", "files"]⟩

def read? (path : Path) : IO (Option Bytes) := do
  try return some (← IO.FS.readBinFile path.text.toString).toList
  catch _ => return none

/-- The tree with the files at some paths, as far as they exist. -/
def load (cwd : Place) (t : Tree) (paths : List Path) : IO Tree :=
  paths.foldlM (fun t p => do
    match ← read? p with
    | some bytes => return t.addFile (p.resolve cwd) bytes
    | none => return t) t

def lines (bytes : Bytes) : List Text :=
  (Text.bodies (Utf8.decode bytes)).filter fun l => !l.isEmpty

/-- The variables of the process. -/
def environment : IO (List (Text × Text)) := do
  let bytes ← read? (Path.ofText "/proc/self/environ")
  return (Text.splitAt (Rune.ofNat 0) (Utf8.decode (bytes.getD []))).filterMap (Text.cut? "=")

def now : IO DateTime := do
  let t ← Std.Time.PlainDateTime.now
  let micro := t.time.nanosecond.val.toNat / 1000
  let date := t.date
  match DateTime.make? date.year.toNat date.month.val.toNat date.day.val.toNat
    t.time.hour.val.toNat t.time.minute.val.toNat t.time.second.val.toNat micro with
  | some now => return now
  | none => throw (IO.userError "the clock is outside the calendar")

/-- Random numbers that follow from a seed of the system. -/
def random : IO (Nat → UInt32) := do
  let bytes ← IO.getRandomBytes 8
  let seed := bytes.foldl (fun n b => n * 256 + b.toUInt64) 0
  return fun n => (mixHash seed (UInt64.ofNat n)).toUInt32

partial def readToEnd (s : IO.FS.Stream) (done : ByteArray) : IO ByteArray := do
  let more ← s.read 4096
  if more.isEmpty then return done else readToEnd s (done ++ more)

/-- The command may ask the user something. -/
def asks : Command → Bool
  | .add _ proposal => proposal.title.isNone
  | .sync _ acceptAll => !acceptAll
  | _ => false

def documentOf : Command → Option Path
  | .init p | .list p | .add p _ | .gather _ p _ | .sync p _ | .validate _ p => p

/-- What a request may look at. -/
def workspaceFor (request : Request) : IO Workspace := do
  let cwd := (Path.ofText (toString (← IO.currentDir)).toText).segments
  let listed := lines ((← read? listing).getD [])
  let tree ← load cwd (Tree.empty.addDirectories cwd)
    (listed.map Path.ofText ++ [Settings.defaultFile] ++ request.settings.toList ++
      (documentOf request.command).toList)
  let input ← if asks request.command then readToEnd (← IO.getStdin) .empty else pure .empty
  let w : Workspace :=
    { tree, cwd, clock := ← now, tokens := 0, environment := ← environment,
      input := Utf8.decode input.toList, output := [], errors := [], events := [],
      random := ← random }
  match (Settings.load request.settings).run w with
  | (.ok s, _) =>
    return { w with tree := ← load cwd tree [s.document, s.logging.filePath] }
  | _ => return w

def nameOf (cwd place : Place) : String := (Path.seenFrom cwd place).text.toString

/-- Writes back what a request changed. -/
def store (before after : Workspace) : IO Unit := do
  for place in before.tree.created after.tree do
    IO.FS.createDirAll (nameOf before.cwd place)
  for (place, bytes) in before.tree.written after.tree do
    IO.FS.writeBinFile (nameOf before.cwd place) (ByteArray.mk bytes.toArray)
  for place in before.tree.removed after.tree do
    IO.FS.removeFile (nameOf before.cwd place)
  if let some bytes ← read? listing then
    let old := lines bytes
    let name (place : Place) : Text := (Path.seenFrom before.cwd place).text
    let gone := (before.tree.removed after.tree).map name
    let made := (before.tree.written after.tree).map fun f => name f.1
    let names := old.filter (fun n => !gone.contains n) ++ made.filter fun n => !old.contains n
    IO.FS.writeFile listing.text.toString (Text.join "\n" (names ++ [[]])).toString

def run (request : Request) : IO UInt32 := do
  let before ← workspaceFor request
  let (result, after) := request.run.run before
  store before after
  IO.print after.output.toString
  let (code, log) := match result with
    | .ok finish => (finish.exitCode, finish.log)
    | .error _ => (1, [])
  for l in log do
    IO.eprintln (l.render before.clock).toString
  IO.eprint after.errors.toString
  if let .error fault := result then
    IO.eprintln (fault.kind ++ ": " ++ fault.message).toString
  return UInt32.ofNat code

end Main

end TodoLedger

open TodoLedger in
def main (args : List String) : IO UInt32 := do
  match Request.read (args.map String.toText) with
  | .ok request => Main.run request
  | .error .misuse =>
    IO.eprint Refusal.misuse.text.toString
    return UInt32.ofNat Refusal.misuse.exitCode
  | .error refusal =>
    IO.print refusal.text.toString
    return UInt32.ofNat refusal.exitCode
