import TodoLedger.Issue
import TodoLedger.Text.Break
/-!
# Headlines

The first line of an entry: stars for the level, a state, a priority in a cookie, a title and a
group of tags between colons. Reading and writing meet in `Headline`.
-/

namespace TodoLedger

structure Headline where
  level : Int
  state : State
  priority : Priority
  title : Text
  tags : List Text
deriving DecidableEq

/-- Why a line is no headline. -/
inductive HeadlineFault
  | noStars (line : Text)
  | noState (line : Text)
  | unknownState (word line : Text)
  | noTitle (line : Text)
deriving DecidableEq

def HeadlineFault.message : HeadlineFault → Text
  | noStars line => "Expected headline: " ++ line
  | noState line => "Expected issue state but found end of line: " ++ line
  | unknownState word line => "Unknown issue state '" ++ word ++ "' in headline: " ++ line
  | noTitle line => "Headline cannot be empty: " ++ line

namespace Headline

def isStar (c : Rune) : Bool := c = '*'

def endsStateWord (c : Rune) : Bool := c.isBlank || c = '['

/-- What follows the stars. A headline is one line, of which a single line feed may be left at the
end. -/
def rest? (line : Text) : Option Text :=
  let r := line.dropWhile isStar
  if r.length = line.length then none
  else
    let body := r.takeWhile fun c => c ≠ Rune.ofChar '\n'
    if r = body || r = body ++ [Rune.ofChar '\n'] then some body else none

/-- Reads `[#A]` in front of a text. -/
def cookie? : Text → Option (Priority × Text)
  | a :: b :: c :: d :: r =>
    if a = '[' && b = '#' && d = ']' then
      if c = 'A' || c = 'a' then some (.a, r)
      else if c = 'B' || c = 'b' then some (.b, r)
      else if c = 'C' || c = 'c' then some (.c, r)
      else none
    else none
  | _ => none

/-- The text begins with a colon and has a further one at its end. -/
def isTagGroup (t : Text) : Bool :=
  2 ≤ t.length && t.head? = some (Rune.ofChar ':') && t.getLast? = some (Rune.ofChar ':')

/-- Cuts a text before the first tag group that stands at its beginning or behind a blank and runs
to its end. The flag says that such a group may begin here. -/
def cutTags (mayBegin : Bool) : Text → Text × Text
  | [] => ([], [])
  | c :: r =>
    if mayBegin && isTagGroup (c :: r) then ([], c :: r)
    else
      let (title, group) := cutTags c.isBlank r
      (c :: title, group)

/-- The priority, the title and the tags that stand behind the state. -/
def shown? (text : Text) : Option (Priority × Text × List Text) :=
  let rest := Text.trimStart text
  let (priority, rest) := (cookie? rest).getD (.none, rest)
  let (title, group) := cutTags true (Text.trim rest)
  let title := Text.trim title
  if title.isEmpty then none else some (priority, title, Entry.tagsOf group)

def decode (line : Text) : Except HeadlineFault Headline :=
  match rest? line with
  | none => .error (.noStars line)
  | some rest =>
    let rest := Text.trimStart rest
    let word := rest.takeWhile fun c => !endsStateWord c
    if word.isEmpty then .error (.noState line)
    else match State.ofKeyword? word with
      | none => .error (.unknownState word line)
      | some state =>
        match shown? (rest.drop word.length) with
        | none => .error (.noTitle line)
        | some (priority, title, tags) =>
          .ok { level := (line.takeWhile isStar).length, state, priority, title, tags }

/-- The parts of a headline behind its state. -/
def shownParts (h : Headline) : List Text :=
  (if h.priority = .none then [] else ["[#" ++ h.priority.name ++ "]"]) ++
    h.title :: (if h.tags.isEmpty then [] else [Issue.tagGroup h.tags])

/-- The line that shows a headline. A level below one shows as one. -/
def encode (h : Headline) : Text :=
  Text.join " "
    (List.replicate (max h.level 1).toNat (Rune.ofChar '*') :: h.state.keyword :: h.shownParts)

/-- The headline of an issue under a given title. -/
def ofIssue (i : Issue) (title : Text) : Headline :=
  { level := i.level, state := i.state, priority := i.priority, title, tags := i.tags }

/-- Written and read again, the headline keeps its priority and its tags. -/
def readsBack (h : Headline) : Bool :=
  match decode h.encode with
  | .error _ => false
  | .ok read => read.priority = h.priority && read.tags = h.tags

def isMarkup (c : Rune) : Bool := c = ':' || c = '[' || c = ']'

/-- The title an issue shows in its headline. A title that would be read as a cookie or as tags is
shown without colons and brackets, and an issue without any title shows its id. -/
def titleOf (i : Issue) : Text :=
  let title := Text.singleLine i.title
  if !title.isEmpty && (ofIssue i title).readsBack then title
  else
    let unmarked := title.map fun c => if isMarkup c then Rune.ofChar ' ' else c
    let plain := Text.join " " (Text.words unmarked)
    if plain.isEmpty then i.id else plain

end Headline

end TodoLedger
