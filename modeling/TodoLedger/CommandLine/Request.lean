import TodoLedger.CommandLine.Switch
import TodoLedger.Settings
/-!
# Requests

What a user asks for on the command line: a command with its choices, and the choices that stand in
front of it. Without a command the issues are listed.
-/

namespace TodoLedger

/-- What is said of a new issue; what is missing is asked for if the title is missing. -/
structure Proposal where
  title : Option Text
  priority : Option Priority
  state : Option State
  tags : Option Text
  body : Text

inductive Command
  | init (document : Option Path)
  | list (document : Option Path)
  | add (document : Option Path) (proposal : Proposal)
  | gather (directory : Path) (document : Option Path) (dryRun : Bool)
  | sync (document : Option Path) (acceptAll : Bool)
  | validate (directory : Path) (document : Option Path)

def Command.name : Command → Text
  | init _ => "init"
  | list _ => "list"
  | add .. => "add"
  | gather .. => "gather"
  | sync .. => "sync"
  | validate .. => "validate"

structure Request where
  settings : Option Path
  isDebug : Bool
  format : Option LogFormat
  command : Command

namespace CommandLine

variable {α : Type}

def helpSwitch : Switch α := ⟨["-h", "--help"], .refuse .help⟩

def markSwitch (names : List Text) (f : α → α) : Switch α := ⟨names, .mark f⟩

def pathSwitch (names : List Text) (f : Path → α → α) : Switch α :=
  ⟨names, .value fun t a => some (f (Path.ofText t) a)⟩

def textSwitch (names : List Text) (f : Text → α → α) : Switch α :=
  ⟨names, .value fun t a => some (f t a)⟩

/-- A switch whose value is the name of one of some choices. -/
def choiceSwitch {β : Type} (names : List Text) (choice? : Text → Option β) (f : β → α → α) :
    Switch α :=
  ⟨names, .value fun t a => (choice? t).map fun b => f b a⟩

/-- Priorities and states are chosen by name in any case. -/
def priority? (t : Text) : Option Priority :=
  Priority.all.find? fun p => Text.upper p.name = Text.upper t

def state? (t : Text) : Option State := State.ofKeyword? (Text.upper t)

def format? (t : Text) : Option LogFormat :=
  [LogFormat.json, LogFormat.console].find? fun f => f.name = t

/-- A command that takes a document. -/
def documentGrammar : Grammar (Option Path) where
  switches := [helpSwitch]
  operand := .single fun t _ => some (Path.ofText t)

def addGrammar : Grammar (Option Path × Proposal) where
  switches := [
    helpSwitch,
    textSwitch ["-t", "--title"] fun t (p, d) => (p, { d with title := some t }),
    choiceSwitch ["-p", "--priority"] priority? fun v (p, d) => (p, { d with priority := some v }),
    choiceSwitch ["-s", "--state"] state? fun v (p, d) => (p, { d with state := some v }),
    textSwitch ["--tags"] fun t (p, d) => (p, { d with tags := some t }),
    textSwitch ["-b", "--body"] fun t (p, d) => (p, { d with body := t })]
  operand := .single fun t (_, d) => (some (Path.ofText t), d)

def gatherGrammar : Grammar (Path × Option Path × Bool) where
  switches := [
    helpSwitch,
    pathSwitch ["--org"] fun q (p, _, b) => (p, some q, b),
    markSwitch ["--dry-run"] fun (p, q, _) => (p, q, true)]
  operand := .single fun t (_, q, b) => (Path.ofText t, q, b)

def syncGrammar : Grammar (Option Path × Bool) where
  switches := [
    helpSwitch,
    pathSwitch ["--org"] fun q (_, b) => (some q, b),
    markSwitch ["-y", "--yes"] fun (q, _) => (q, true)]
  operand := .none

def validateGrammar : Grammar (Path × Option Path) where
  switches := [helpSwitch, pathSwitch ["--org"] fun q (p, _) => (p, some q)]
  operand := .single fun t (_, q) => (Path.ofText t, q)

def here : Path := ⟨.relative, []⟩

def noProposal : Proposal := ⟨none, none, none, none, []⟩

/-- Reads the words of a line to their end; none may be left over. -/
def readAll (g : Grammar α) (choices : α) (line : List Text) : Except Refusal α := do
  let r ← g.read choices line
  if r.hasExcess then .error .misuse else .ok r.choices

end CommandLine

open CommandLine

/-- The readers of the commands, by name. -/
def Command.readers : List (Text × (List Text → Except Refusal Command)) := [
  ("init", fun line => (readAll documentGrammar none line).map .init),
  ("list", fun line => (readAll documentGrammar none line).map .list),
  ("add", fun line => (readAll addGrammar (none, noProposal) line).map fun (p, d) => .add p d),
  ("gather", fun line =>
    (readAll gatherGrammar (here, none, false) line).map fun (p, q, b) => .gather p q b),
  ("sync", fun line => (readAll syncGrammar (none, false) line).map fun (q, b) => .sync q b),
  ("validate", fun line =>
    (readAll validateGrammar (here, none) line).map fun (p, q) => .validate p q)]

/-- Reads a command and its choices. -/
def Command.read : List Text → Except Refusal Command
  | [] => .ok (.list none)
  | name :: line =>
    match Command.readers.lookup name with
    | none => .error .misuse
    | some reader => reader line

namespace Request

def grammar : Grammar Request where
  switches := [
    helpSwitch,
    ⟨["--version"], .refuse .version⟩,
    pathSwitch ["-c", "--config"] fun p r => { r with settings := some p },
    markSwitch ["-d", "--debug"] fun r => { r with isDebug := true },
    choiceSwitch ["--format"] format? fun f r => { r with format := some f }]
  operand := .command

/-- Reads a command line. -/
def read (line : List Text) : Except Refusal Request := do
  let r ← grammar.read ⟨none, false, none, .list none⟩ line
  let command ← Command.read r.command
  if r.hasExcess then .error .misuse else .ok { r.choices with command }

end Request

end TodoLedger
