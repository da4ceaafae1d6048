import TodoLedger.Calendar
import TodoLedger.Properties
import TodoLedger.Text.Digit
import TodoLedger.Text.Search
/-!
# Issues

An issue has a state, a priority, tags and properties. An issue that was gathered from a source
file has four properties that say where.
-/

namespace TodoLedger

inductive State
  | todo
  | inProgress
  | done
  | kill
deriving DecidableEq

namespace State

/-- The word that stands for a state in a headline. -/
def keyword : State → Text
  | todo => "TODO"
  | inProgress => "INPROGRESS"
  | done => "DONE"
  | kill => "KILL"

def all : List State := [todo, inProgress, done, kill]

def ofKeyword? (word : Text) : Option State := all.find? (·.keyword = word)

end State

inductive Priority
  | none
  | a
  | b
  | c
deriving DecidableEq

namespace Priority

def name : Priority → Text
  | none => "None"
  | a => "A"
  | b => "B"
  | c => "C"

def all : List Priority := [none, a, b, c]

/-- Reads the name of a priority in any case, blanks around it ignored. -/
def ofName? (name : Text) : Option Priority :=
  all.find? fun p => Text.upper p.name = Text.upper (Text.trim name)

end Priority

/-- The properties that link an issue to a place in a source file. -/
def sourceFileKey : Text := "SOURCE_FILE"
def sourceLineKey : Text := "SOURCE_LINE"
def sourceColumnKey : Text := "SOURCE_COLUMN"
def sourceHashKey : Text := "SOURCE_UUID"

def sourceKeys : List Text := [sourceFileKey, sourceLineKey, sourceColumnKey, sourceHashKey]

/-- The spellings under which the time of creation is looked up, in this order. -/
def createdKeys : List Text := ["CREATED", "CREATED_AT", "created", "created_at"]

structure Issue where
  id : Text
  title : Text
  description : Text
  createdAt : DateTime
  state : State
  priority : Priority
  tags : List Text
  properties : Properties
  level : Int
deriving DecidableEq

/-- The first occurrences of the elements of a list. -/
def distinct {α : Type} [DecidableEq α] : List α → List α
  | [] => []
  | a :: r => a :: (distinct r).filter (· ≠ a)

/-- A number above zero. -/
def positive? (text : Text) : Option Nat :=
  match Text.toInt? text with
  | some (.ofNat (n + 1)) => some (n + 1)
  | _ => none

namespace Issue

/-- An issue with each tag once; an issue needs an id. -/
def make? (issue : Issue) : Option Issue :=
  if issue.id.isEmpty then none else some { issue with tags := distinct issue.tags }

def sourceFile? (i : Issue) : Option Text := i.properties.get? sourceFileKey

def sourceLine? (i : Issue) : Option Nat := (i.properties.get? sourceLineKey).bind positive?

def sourceColumn? (i : Issue) : Option Nat := (i.properties.get? sourceColumnKey).bind positive?

def sourceHash? (i : Issue) : Option Text := i.properties.get? sourceHashKey

/-- All four source properties are there, with a file and a line. -/
def isLinked (i : Issue) : Bool :=
  sourceKeys.all i.properties.has &&
    !Text.isBlank ((i.sourceFile?).getD []) && (i.sourceLine?).isSome

def tagGroup (tags : List Text) : Text := ":" ++ Text.join ":" tags ++ ":"

/-- One line about an issue, for display. -/
def summary (i : Issue) : Text :=
  let tags := Text.join " " (i.tags.map fun t => ":" ++ t ++ ":")
  Text.trimEnd ("[" ++ i.id ++ "] " ++ i.title ++ " (" ++ i.state.keyword ++ ") [" ++
    i.priority.name ++ "] " ++ tags)

end Issue

/-- What a document says of one issue, before its properties are applied. -/
structure Entry where
  headline : Text
  level : Int
  state : State
  priority : Priority
  tags : List Text
  properties : Properties
  body : Text

/-- Why an entry makes no issue. -/
inductive EntryFault
  | noId
  | emptyId
deriving DecidableEq

namespace Entry

/-- The parts of a text between colons, trimmed, without the blank ones. -/
def tagsOf (text : Text) : List Text :=
  ((Text.splitAt ':' text).map Text.trim).filter fun t => !t.isEmpty

/-- The issue of an entry: its title, description, priority and tags are those of the properties
`TITLE`, `DESCRIPTION`, `PRIORITY` and `TAGS` where these are set. -/
def toIssue (e : Entry) (createdAt : DateTime) : Except EntryFault Issue :=
  let p := e.properties
  match p.get? "ID" with
  | none => .error .noId
  | some id =>
    let title := (p.get? "TITLE").getD []
    let issue := Issue.make? {
      id
      title := if title.isEmpty then e.headline else title
      description := (p.get? "DESCRIPTION").getD e.body
      createdAt
      state := e.state
      priority := ((p.get? "PRIORITY").bind Priority.ofName?).getD e.priority
      tags := ((p.get? "TAGS").map tagsOf).getD e.tags
      properties := p
      level := e.level }
    match issue with
    | none => .error .emptyId
    | some issue => .ok issue

end Entry

end TodoLedger
