import TodoLedger.Headline
import TodoLedger.Timestamp
/-!
# Writing entries

The written form of an issue: a headline, an indented drawer that starts with the id and the time
of creation, and the indented description, of which no line can be taken for a headline.
-/

namespace TodoLedger

def entryIndent : Text := "  "

/-- The keys that every drawer starts with. -/
def leadingKeys : List Text := ["ID", "CREATED", "CREATED_AT"]

def isLeadingKey (key : Text) : Bool := leadingKeys.contains (Text.upper key)

def propertyLine (key value : Text) : Text := entryIndent ++ ":" ++ key ++ ": " ++ value

namespace Issue

/-- The lines of an issue's drawer. The exact title is among them when the headline cannot show
it. -/
def drawer (i : Issue) (shown : Text) : List Text :=
  let title := Text.singleLine i.title
  [entryIndent ++ ":PROPERTIES:", propertyLine "ID" i.id,
    propertyLine "CREATED" (Timestamp.encode i.createdAt true)] ++
  (if shown ≠ title && !i.properties.has "TITLE" then [propertyLine "TITLE" title] else []) ++
  (i.properties.entries.filter fun e => !isLeadingKey e.1).map
    (fun e => Text.trimEnd (propertyLine e.1 (Text.singleLine e.2))) ++
  [entryIndent ++ ":END:"]

/-- The lines of an issue's description, each indented unless it is blank. -/
def bodyLines (i : Issue) : List Text :=
  if i.description.isEmpty then []
  else (Text.pieces i.description).map
    (fun line => if Text.isBlank line then [] else entryIndent ++ line) ++ [[]]

/-- The entry of an issue, which ends with a blank line. -/
def render (i : Issue) : Text :=
  let title := Headline.titleOf i
  Text.join "\n" ([(Headline.ofIssue i title).encode] ++ i.drawer title ++ [[]] ++ i.bodyLines) ++
    "\n"

def renderHeadline (i : Issue) : Text := (Headline.ofIssue i (Headline.titleOf i)).encode

end Issue

/-- Why no issue can be made under a title. -/
inductive TitleFault
  | missing
  | onlyTags (title : Text)
deriving DecidableEq

def TitleFault.message : TitleFault → Text
  | missing => "Title is required"
  | onlyTags title => "Title cannot consist only of tags: " ++ title

/-- The issue that somebody adds by hand at a moment. -/
def newIssue (title : Text) (priority : Priority) (state : State) (tags : List Text) (body : Text)
    (now : DateTime) : Except TitleFault Issue :=
  let title := Text.singleLine title
  if title.isEmpty then .error .missing
  else if Headline.isTagGroup title then .error (.onlyTags title)
  else
    let id : Text := "task-" ++ now.dateDigits ++ now.timeDigits
    .ok {
      id, title
      description := Text.trim body
      createdAt := now.startOfMinute
      state, priority
      tags := distinct ((tags.map Text.trim).filter fun t => !t.isEmpty)
      properties := .ofList
        [("ID", id), ("TITLE", title), ("CREATED", Timestamp.encode now true)]
      level := 1 }

end TodoLedger
