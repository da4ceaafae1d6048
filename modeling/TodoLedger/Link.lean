import TodoLedger.Comment.Task
import TodoLedger.Document.Writer
/-!
# Tasks and their issues

A task and an issue belong together when the issue points at the task's file and line. A gathered
issue is made so that it does.
-/

namespace TodoLedger

/-- File names are compared with slashes of one kind and without regard to case. -/
def foldFile (file : Text) : Text := Text.fold (Text.mapChar '\\' '/' file)

/-- The issue points at a file and a line. -/
def Issue.pointsAt (i : Issue) (file : Text) (line : Int) : Bool :=
  i.isLinked && foldFile (i.sourceFile?.getD []) = foldFile file &&
    i.sourceLine?.map Int.ofNat = some line

namespace Task

/-- The first issue that points at a task. -/
def issueIn? (cwd : List Text) (t : Task) (issues : List Issue) : Option Issue :=
  issues.find? fun i => i.pointsAt (t.file cwd) t.line

def isKnown (cwd : List Text) (t : Task) (issues : List Issue) : Bool :=
  (t.issueIn? cwd issues).isSome

def priority (t : Task) : Priority :=
  let word := Text.upper t.keyword
  if word = ("FIXME" : Text) || word = ("BUG" : Text) then .a
  else if word = ("TODO" : Text) then .b
  else if word = ("HACK" : Text) then .c
  else .none

end Task

/-- The first `n` characters; a negative count leaves out so many at the end. -/
def takeInt (n : Int) (t : Text) : Text :=
  match n with
  | .ofNat k => t.take k
  | .negSucc k => t.take (t.length - (k + 1))

/-- A text that is too long for a title is cut to make room for three dots. -/
def shorten (limit : Int) (t : Text) : Text :=
  if limit < t.length then takeInt (limit - 3) t ++ "..." else t

def gatheredId (now : DateTime) (token : Text) : Text :=
  "gather-" ++ now.dateDigits ++ "-" ++ now.timeDigits ++ "-" ++ token

/-- The issue that is made of a task at a moment. -/
def Issue.ofTask (cwd : List Text) (t : Task) (token : Text) (now : DateTime) (titleLimit : Int) :
    Except EncodingFault Issue := do
  let hash ← t.contentHash
  let title := shorten titleLimit t.text
  let tags : List Text := ["gathered", Text.lower t.style]
  let id := gatheredId now token
  return {
    id, title
    description := t.statement
    createdAt := now.startOfMinute
    state := .todo
    priority := t.priority
    tags := distinct tags
    properties := .ofList [
      ("ID", id), ("TITLE", title), ("CREATED", Timestamp.encode now true),
      (sourceFileKey, t.file cwd), (sourceLineKey, Text.ofInt t.line),
      (sourceColumnKey, Text.ofInt t.column), (sourceHashKey, hash),
      ("PRIORITY", t.priority.name), ("TAGS", Text.join ":" tags)]
    level := 1 }

end TodoLedger
