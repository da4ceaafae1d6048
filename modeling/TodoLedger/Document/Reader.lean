import TodoLedger.Document.Fault
import TodoLedger.Text.Line
/-!
# Reading documents

A document is a preamble followed by entries: a headline, a drawer of properties and a body. The
reader takes one line at a time, and a fault leaves it as far as it had come.
-/

namespace TodoLedger

/-- An entry that is still being read. -/
structure Draft where
  line : Int
  headline : Headline
  properties : Properties
  body : List Text
deriving DecidableEq

structure Reader where
  phase : Phase
  line : Nat
  draft : Option Draft
  issues : List Issue
deriving DecidableEq

def drawerMarker : Text := ":PROPERTIES:"
def endMarker : Text := ":END:"

/-- The line is a marker in any case, blanks around it ignored. -/
def isMarkerLine (marker line : Text) : Bool := Text.upper (Text.trim line) = marker

/-- The key and the value of a trimmed line `:KEY: value`, whose value holds no line feed. -/
def propertyOf? : Text → Option (Text × Text)
  | [] => none
  | c :: r =>
    if c = ':' then
      let key := r.takeWhile fun a => a ≠ Rune.ofChar ':'
      match r.drop key.length with
      | [] => none
      | _ :: value =>
        if value.contains (Rune.ofChar '\n') then none else some (Text.trim key, Text.trim value)
    else none

namespace Draft

def ofHeadline (line : Int) (h : Headline) : Draft := ⟨line, h, .empty, []⟩

/-- The first of the keys whose value is no position. -/
def checkPositions (d : Draft) (id : Text) : List Text → Except ReadFault Unit
  | [] => .ok ()
  | key :: keys =>
    let raw := (d.properties.get? key).getD []
    let value := Text.trim raw
    if !Text.isDecimal value then .error (.document d.line (.badPosition id key raw))
    else if Text.maxDigits < value.length then .error (.tooManyDigits value.length)
    else if Text.digitsValue value < 1 then .error (.document d.line (.badPosition id key raw))
    else checkPositions d id keys

/-- An entry has all the source properties or none of them. -/
def checkSource (d : Draft) (id : Text) : Except ReadFault Unit :=
  if !sourceKeys.any d.properties.has then .ok ()
  else
    let missing := sourceKeys.filter fun key => !d.properties.has key
    if missing.isEmpty then d.checkPositions id [sourceLineKey, sourceColumnKey]
    else .error (.document d.line (.partialSource id missing))

def entry (d : Draft) : Entry where
  headline := d.headline.title
  level := d.headline.level
  state := d.headline.state
  priority := d.headline.priority
  tags := d.headline.tags
  properties := d.properties
  body := Text.join "\n" d.body

/-- The issue of a finished entry. -/
def toIssue (d : Draft) : Except ReadFault Issue :=
  let id := Text.trim ((d.properties.get? "ID").getD [])
  if id.isEmpty then .error (.document d.line (.noId d.headline.title))
  else match d.properties.first? createdKeys with
    | none => .error (.document d.line (.noCreated id))
    | some created =>
      match Timestamp.decode created with
      | .error cause => .error (.document d.line (.badCreated id created cause))
      | .ok createdAt => do
        d.checkSource id
        match d.entry.toIssue createdAt with
        | .ok issue => .ok issue
        | .error _ => .error (.document d.line (.noId d.headline.title))

end Draft

namespace Reader

def start : Reader := ⟨.unassigned, 0, none, []⟩

/-- Turns the entry that is being read into an issue. -/
def settle (r : Reader) : Except ReadFault (Issue × Reader) :=
  match r.draft with
  | none => .error .noDraft
  | some d => d.toIssue.map fun issue =>
    (issue, { r with phase := .unassigned, draft := none, issues := r.issues ++ [issue] })

/-- Settles the entry that is being read, if there is one. -/
def settleIfAny (r : Reader) : Except ReadFault Reader :=
  if r.draft.isNone then .ok r else r.settle.map Prod.snd

def isHeadlineLine (line : Text) : Bool := line.head? = some (Rune.ofChar '*')

def feedHeadline (r : Reader) (line : Text) : Reader × Option ReadFault :=
  if r.phase = .properties then (r, some (.document r.line .drawerOpenAtHeadline))
  else match r.settleIfAny with
    | .error fault => (r, some fault)
    | .ok r =>
      match Headline.decode line with
      | .error cause => (r, some (.document r.line (.headline cause)))
      | .ok h => ({ r with phase := .headline, draft := some (.ofHeadline r.line h) }, none)

def addBody (d : Draft) (line : Text) : Draft := { d with body := d.body ++ [line] }

/-- Blank lines between a headline and its drawer are dropped with the drawer's first line. -/
def afterHeadline (r : Reader) (d : Draft) (line : Text) : Reader :=
  if isMarkerLine drawerMarker line then
    { r with phase := .properties, draft := some { d with body := [] } }
  else
    { r with
      phase := if Text.isBlank line then .headline else .body
      draft := some (addBody d line) }

/-- A line of a drawer that does not start with a colon is passed over. -/
def inDrawer (r : Reader) (d : Draft) (line : Text) : Reader × Option ReadFault :=
  let trimmed := Text.trim line
  if isMarkerLine endMarker line then ({ r with phase := .body }, none)
  else if trimmed.head? ≠ some (Rune.ofChar ':') then (r, none)
  else match propertyOf? trimmed with
    | none => (r, some (.document r.line (.badPropertyLine line)))
    | some (key, value) =>
      if key.isEmpty then (r, some (.document r.line (.blankKey line)))
      else ({ r with draft := some { d with properties := d.properties.set key value } }, none)

/-- One line that is no headline. -/
def feedInner (r : Reader) (line : Text) : Reader × Option ReadFault :=
  match r.phase, r.draft with
  | .unassigned, _ => (r, none)
  | phase, none => (r, some (.noEntry phase))
  | .headline, some d => (r.afterHeadline d line, none)
  | .properties, some d => r.inDrawer d line
  | .body, some d => ({ r with draft := some (addBody d line) }, none)

def feed (r : Reader) (line : Text) : Reader × Option ReadFault :=
  if isHeadlineLine line then r.feedHeadline line else r.feedInner line

/-- The next line of a document. -/
def feedNext (r : Reader) (line : Text) : Reader × Option ReadFault :=
  { r with line := r.line + 1 }.feed line

/-- The end of the document. -/
def finish (r : Reader) : Except ReadFault Reader :=
  if r.phase = .properties then .error (.document r.line .drawerOpenAtEnd) else r.settleIfAny

def feedAll (r : Reader) : List Text → Except ReadFault Reader
  | [] => .ok r
  | line :: lines =>
    match r.feedNext line with
    | (r, none) => r.feedAll lines
    | (_, some fault) => .error fault

end Reader

/-- The issues of a document. -/
def readDocument (text : Text) : Except ReadFault (List Issue) := do
  let r ← Reader.start.feedAll (Text.bodies (Text.dropBom text))
  return (← r.finish).issues

end TodoLedger
