import TodoLedger.Document.Storage
import TodoLedger.Link
import TodoLedger.Patch
import TodoLedger.Settings
import TodoLedger.Sorted
/-!
# Synchronising

The source lines of issues that are done are removed, each after an answer of the user. The answers
are taken in the order of the document; the removals go through each file from the bottom up.
-/

namespace TodoLedger

/-- An answer to the question whether a line is to be removed. -/
inductive Choice
  | yes
  | no
  | all
deriving DecidableEq

/-- An answer as it is typed. -/
def Choice.ofReply (reply : Text) : Choice :=
  let word := Text.lower (Text.trim reply)
  if word = ("a" : Text) then .all else if word = ("y" : Text) then .yes else .no

/-- A line of a file that is to be removed. -/
structure Target where
  path : Path
  line : Nat
deriving DecidableEq

/-- How far the choice of targets has come. -/
structure Review where
  /-- The lines that are to be removed, in the order in which they were accepted. -/
  accepted : List Target
  skipped : Nat
  /-- No further question is asked. -/
  acceptAll : Bool
  answers : List Choice
  asked : List (Issue × Path)
  events : List Event

/-- What a sync run did. -/
structure Synced where
  checked : Nat
  completed : Nat
  skippedInReview : Nat
  asked : List (Issue × Path)
  patches : List Patch

namespace Synced

def removed (s : Synced) : Nat := (s.patches.filter Patch.isChange).length

def skipped (s : Synced) : Nat :=
  s.skippedInReview + (s.patches.filter fun p => !p.isChange).length

def modified (s : Synced) : Nat := Patch.changedFiles s.patches

def counts (s : Synced) : SyncCounts where
  checked := s.checked
  completed := s.completed
  removed := s.removed
  skipped := s.skipped
  modified := s.modified

end Synced

namespace Sync

/-- The first name on the way to a place that the system cannot hold. -/
def checkNames (place : Place) : List Text → Except Fault Unit
  | [] => .ok ()
  | s :: rest =>
    if s = dotDot then checkNames place.dropLast rest
    else
      let text := (Path.absolute (place ++ [s])).text
      match Utf8.encode text with
      | .error f => .error (.encoding f)
      | .ok _ =>
        if text.contains (Rune.ofNat 0) then .error .nullByte else checkNames (place ++ [s]) rest

/-- The file that an issue points at, as an absolute path. -/
def fileOf (cwd : Place) (i : Issue) : Except Fault Path := do
  let path := Path.ofText (i.sourceFile?.getD [])
  let start := if path.anchor = .relative then cwd else []
  checkNames start path.segments
  return Path.absolute (path.resolve cwd)

end Sync

namespace Review

def start (auto : Bool) (answers : List Choice) : Review := ⟨[], 0, auto, answers, [], []⟩

def skip (r : Review) : Review := { r with skipped := r.skipped + 1 }

def note (r : Review) (e : Event) : Review := { r with events := r.events ++ [e] }

def accept (r : Review) (t : Target) : Review := { r with accepted := r.accepted ++ [t] }

/-- Asks whether a target is to be removed. Without a further answer the answer is no. -/
def question (r : Review) (i : Issue) (t : Target) : Review :=
  let answer := r.answers.head?.getD .no
  let r := { r with answers := r.answers.tail, asked := r.asked ++ [(i, t.path)] }
  match answer with
  | .all => accept { r with acceptAll := true } t
  | .yes => r.accept t
  | .no => r.skip

/-- Decides on the target of one issue. -/
def step (w : Workspace) (r : Review) (i : Issue) : Except Fault Review := do
  let path ← Sync.fileOf w.cwd i
  let target : Target := ⟨path, i.sourceLine?.getD 0⟩
  match ← w.node? path with
  | some (.file _) =>
    if r.accepted.contains target then
      return (r.note (.targetRepeated path target.line i.id)).skip
    else if r.acceptAll then return r.accept target
    else return r.question i target
  | _ => return (r.note (.targetMissing path i.id)).skip

/-- Decides on the targets of issues in turn; a fault ends the review as far as it has come. -/
def run (w : Workspace) (r : Review) : List Issue → Review × Option Fault
  | [] => (r, none)
  | i :: is =>
    match r.step w i with
    | .ok r => r.run w is
    | .error fault => (r, some fault)

end Review

namespace Sync

/-- The accepted lines file by file, in the order in which the files were first accepted, and from
the bottom up within a file. -/
def removals (accepted : List Target) : List Target :=
  (distinct (accepted.map Target.path)).flatMap fun path =>
    sorted (fun s t => t.line ≤ s.line) (accepted.filter fun t => t.path = path)

/-- The issues that are done and point at a source file. -/
def completed (issues : List Issue) : List Issue :=
  issues.filter fun i => i.state = .done && i.isLinked

open Work

/-- The question that is put to a user about an issue. -/
def promptFor (i : Issue) : Text :=
  let line : Text := match i.sourceLine? with
    | some n => Text.ofNat n
    | none => "None"
  "\nRemove TODO from " ++ i.sourceFile?.getD "None" ++ ":" ++ line ++ "?\nIssue: " ++ i.title ++
    "\nRemove? (y/N/a=remove all): "

def reportAll : List Event → Work Unit
  | [] => return
  | e :: es => do
    report e
    reportAll es

/-- Who answers the questions: nobody, because all is accepted; a list of answers; or the user at
the input. -/
inductive Approver
  | auto
  | scripted (answers : List Choice)
  | user

/-- The answers on the lines of an input. -/
def repliesOf (input : Text) : List Choice :=
  (Text.splitAt '\n' input).map Choice.ofReply

def Approver.answers (input : Text) : Approver → List Choice
  | .auto => []
  | .scripted answers => answers
  | .user => repliesOf input

def Approver.isAuto : Approver → Bool
  | .auto => true
  | _ => false

/-- The questions that were asked, put to a user. -/
def Approver.prompt (asked : List (Issue × Path)) : Approver → Work Unit
  | .user => print (asked.flatMap fun (i, _) => promptFor i)
  | _ => pure ()

/-- The decisions on the issues that are done, and the fault that ended them early. -/
def review (approver : Approver) (w : Workspace) (issues : List Issue) : Review × Option Fault :=
  (Review.start approver.isAuto (approver.answers w.input)).run w (completed issues)

/-- Reviews the issues that are done, and reports and asks on the way. -/
def decide (approver : Approver) (issues : List Issue) : Work Review := do
  let (r, fault) := review approver (← get) issues
  reportAll r.events
  approver.prompt r.asked
  match fault with
  | some fault => throw fault
  | none => return r

/-- The removal of one accepted line. -/
def remove (b : Backups) (t : Target) : Work Patch := Patch.apply b t.path (.removeLine t.line)

/-- The end of a run, after the removals. -/
def conclude (issues : List Issue) (r : Review) (patches : List Patch) : Work Synced := do
  let result : Synced :=
    { checked := issues.length, completed := (completed issues).length,
      skippedInReview := r.skipped, asked := r.asked, patches }
  report (.syncCompleted result.counts)
  return result

/-- Removes the source lines of the issues that are done. -/
def run (settings : Settings) (document : Path) (approver : Approver) : Work Synced := do
  let b ← ask fun w => settings.backups w.cwd
  if !(← isFile document) then throw (.documentMissing document)
  report (.syncStarted document approver.isAuto)
  let issues ← Document.load document
  let r ← decide approver issues
  let patches ← (removals r.accepted).mapM (remove b)
  conclude issues r patches

end Sync

end TodoLedger
