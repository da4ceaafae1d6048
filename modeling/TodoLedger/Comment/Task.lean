import TodoLedger.Comment.Marker
import TodoLedger.Comment.Syntax
import TodoLedger.Text.Line
import TodoLedger.Text.Utf8
import TodoLedger.Digest
/-!
# Tasks in comments

A comment that starts with one of seven words and a colon marks a task. `tasksOf` finds the tasks
of a source text line by line: the comments that run to the end of a line first, then those that
are closed.
-/

namespace TodoLedger

/-- A task in a source file. Lines and columns count from 1. -/
structure Task where
  path : Path
  line : Int
  column : Int
  lineText : Text
  keyword : Text
  text : Text
  style : Text
  issueId : Option Text
deriving DecidableEq

namespace Task

def isGathered (t : Task) : Bool := t.issueId.isSome

/-- The task as an issue describes it. -/
def statement (t : Task) : Text := t.keyword ++ ": " ++ t.text

/-- The file of a task, seen from the working directory. -/
def file (cwd : List Text) (t : Task) : Text := t.path.relativeTo cwd

/-- Sixteen hexadecimal digits that depend on the keyword and the text only. -/
def contentHash (t : Task) : Except EncodingFault Text :=
  (Utf8.encode (t.keyword ++ ":" ++ t.text)).map fun bytes =>
    (Digest.hexText (Digest.sha256 bytes)).take 16

end Task

/-- The words that mark a task. -/
def taskKeywords : List Text := ["TODO", "FIXME", "HACK", "BUG", "NOTE", "XXX", "REVIEW"]

namespace Scan

/-- A keyword in any case and its colon, in front of a text: the keyword as it is written and the
text behind the colon. -/
def keyword? (t : Text) : Option (Text × Text) :=
  taskKeywords.findSome? fun word => do
    let r ← Text.dropWord? word t
    match r with
    | [] => none
    | c :: rest => if c = ':' then some (t.take word.length, rest) else none

/-- A comment that is opened in front of a text and starts with a keyword. -/
def opened? (opener t : Text) : Option (Text × Text) := do
  keyword? (Text.trimStart (← Text.dropLeading? opener t))

/-- A marked comment: how many characters stand before it, its keyword as it is written and its
text. -/
structure Found where
  offset : Nat
  keyword : Text
  text : Text
deriving DecidableEq

/-- The first marked comment that runs to the end of the line; something stands behind its
colon. -/
def toLineEnd (opener : Text) (offset : Nat) : Text → List Found
  | [] => []
  | c :: r =>
    match opened? opener (c :: r) with
    | some (word, a :: rest) => [⟨offset, word, Text.trim (a :: rest)⟩]
    | _ => toLineEnd opener (offset + 1) r

/-- The marked comments that are closed on the line or left open at its end, after the first `skip`
characters. Each is sought behind the one before. -/
def blocks (opener closer : Text) (offset : Nat) : Nat → Text → List Found
  | _, [] => []
  | skip + 1, _ :: r => blocks opener closer (offset + 1) skip r
  | 0, c :: r =>
    match opened? opener (c :: r) with
    | none => blocks opener closer (offset + 1) 0 r
    | some (word, rest) =>
      let (text, behind) := (Text.cut? closer rest).getD (rest, [])
      ⟨offset, word, Text.trim text⟩ ::
        blocks opener closer (offset + 1) (r.length - behind.length) r

def ofForm (line : Text) : CommentForm → List Found
  | .toLineEnd opener => toLineEnd opener 0 line
  | .block opener closer => blocks opener closer 0 0 line

/-- The marked comments of a line, form after form. -/
def ofLine (comments : CommentSyntax) (line : Text) : List Found :=
  comments.forms.flatMap (ofForm line)

end Scan

/-- The tasks of one line; a line with a marker has tasks only if marked ones are wanted. -/
def tasksOfLine (path : Path) (withMarked : Bool) (number : Nat) (line : Text) : List Task :=
  let issueId := Marker.idOf? line
  if issueId.isSome && !withMarked then []
  else
    (Scan.ofLine (CommentSyntax.ofPath path) line).filterMap fun found =>
      let text := if issueId.isSome then Text.trim (Marker.remove found.text) else found.text
      if text.isEmpty then none
      else some {
        path
        line := number
        column := found.offset + 1
        lineText := line
        keyword := Text.upper found.keyword
        text
        style := CommentSyntax.styleOf path
        issueId }

/-- The tasks of numbered lines. -/
def tasksOfLines (path : Path) (withMarked : Bool) (number : Nat) : List Text → List Task
  | [] => []
  | line :: lines =>
    tasksOfLine path withMarked number line ++ tasksOfLines path withMarked (number + 1) lines

/-- The tasks of a source text, in the order of its lines. -/
def tasksOf (path : Path) (withMarked : Bool) (text : Text) : List Task :=
  tasksOfLines path withMarked 1 (Text.bodies (Text.dropBom text))

end TodoLedger
