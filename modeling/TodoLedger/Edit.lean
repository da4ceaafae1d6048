import TodoLedger.Comment.Task
import TodoLedger.Event
import TodoLedger.Fault
/-!
# Edits of one line

The three changes that are made to a line of a source file. The other lines keep their text and
their endings.
-/

namespace TodoLedger

inductive Edit
  | insertMarker (task : Task) (id : Text)
  | removeLine (line : Int)
  | commentOut (line : Int) (note : Text)

/-- What an edit makes of the lines of a file. -/
inductive Edited
  | changed (lines : List Line) (message : Text)
  | unchanged (message : Text)

def defaultNote : Text := "Marked as done via orgi"

/-- The first keyword with its colon that no word character stands before: what stands before it,
the keyword as it is written and what stands behind it and its blanks. The flag says that the text
itself follows no word character. -/
def findKeyword? (mayStart : Bool) : Text → Option (Text × Text × Text)
  | [] => none
  | c :: r =>
    match (if mayStart then Scan.keyword? (c :: r) else none) with
    | some (word, rest) => some ([], word, rest.dropWhile Rune.isSpaceOrTab)
    | none => (findKeyword? (!c.isWord) r).map fun (before, found) => (c :: before, found)

/-- The first keyword behind the first `n` characters. -/
def findKeywordFrom? (n : Nat) (t : Text) : Option (Text × Text × Text) :=
  let lead := t.take n
  let mayStart := match lead.getLast? with
    | none => true
    | some c => !c.isWord
  (findKeyword? mayStart (t.drop n)).map fun (before, found) => (lead ++ before, found)

/-- The line with a marker behind the keyword that is found from a column on, or else anywhere. -/
def markedBody? (column : Int) (id body : Text) : Option Text := do
  let (before, word, rest) ← (findKeywordFrom? (column - 1).toNat body).or (findKeyword? true body)
  some (before ++ word ++ ": " ++ Marker.text id ++ " " ++ rest)

/-- A text as a comment. -/
def CommentSyntax.wrap (comments : CommentSyntax) (t : Text) : Text :=
  if comments.closing.isEmpty then comments.opening ++ " " ++ t
  else comments.opening ++ " " ++ t ++ " " ++ comments.closing

/-- The line as a comment behind its indent, with a note as a further comment. -/
def commentedBody (comments : CommentSyntax) (note body : Text) : Text :=
  Text.indent body ++ comments.wrap (Text.trim body) ++ " " ++ comments.wrap note

namespace Edit

def operation : Edit → Operation
  | insertMarker .. => .insertMarker
  | removeLine _ => .removeLine
  | commentOut .. => .commentOut

/-- The number of the line that is edited. -/
def target : Edit → Int
  | insertMarker task _ => task.line
  | removeLine line => line
  | commentOut line _ => line

/-- The edit of one line: the lines that take its place and a message, or a message why it stays. -/
def applyLine (comments : CommentSyntax) (line : Line) : Edit → Except Text (List Line × Text)
  | insertMarker task id =>
    if Marker.isBegun line.body then .error "Line already has reference"
    else match markedBody? task.column id line.body with
      | none => .error "No TODO keyword found on line"
      | some body => .ok ([{ line with body }], "Inserted reference " ++ id)
  | removeLine _ => .ok ([], "Removed TODO line: " ++ Text.trim line.body)
  | commentOut _ note =>
    .ok ([{ line with body := commentedBody comments note line.body }],
      "Commented out TODO line: " ++ Text.trim line.body)

/-- The position of a line number in a list of so many lines. -/
def index? (count : Nat) (line : Int) : Option Nat :=
  if 1 ≤ line ∧ line ≤ count then some (line - 1).toNat else none

def apply (e : Edit) (path : Path) (lines : List Line) : Except Fault Edited :=
  match (index? lines.length e.target).bind fun i => (lines[i]?).map (i, ·) with
  | none => .error (.lineOutOfRange e.target path)
  | some (i, line) =>
    match e.applyLine (CommentSyntax.ofPath path) line with
    | .error message => .ok (.unchanged message)
    | .ok (new, message) => .ok (.changed (lines.take i ++ new ++ lines.drop (i + 1)) message)

end Edit

end TodoLedger
