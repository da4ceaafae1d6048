import TodoLedger.Text.Rune
/-!
# Physical lines

A line runs up to a line feed, a carriage return or the two together. The lines of a text carry
their endings, so that nothing is lost by cutting a text into lines.
-/

namespace TodoLedger

/-- How a line ends; only the last line of a text can be open. -/
inductive Ending
  | «open»
  | lf
  | cr
  | crlf
deriving DecidableEq, Repr

def Ending.text : Ending → Text
  | .open => []
  | .lf => [Rune.ofChar '\n']
  | .cr => [Rune.ofChar '\r']
  | .crlf => [Rune.ofChar '\r', Rune.ofChar '\n']

structure Line where
  body : Text
  ending : Ending
deriving DecidableEq

namespace Line

def text (l : Line) : Text := l.body ++ l.ending.text

/-- The line with one more character in front. -/
def push (c : Rune) (l : Line) : Line := { l with body := c :: l.body }

end Line

/-- The byte order mark. -/
def Rune.bom : Rune := Rune.ofNat 0xFEFF

def Rune.isLineEnd (c : Rune) : Bool := c = '\n' || c = '\r'

namespace Text

/-- One more character in front of the lines of a text. -/
def consLine (c : Rune) : List Line → List Line
  | [] => if c = '\n' then [⟨[], .lf⟩] else if c = '\r' then [⟨[], .cr⟩] else [⟨[c], .open⟩]
  | l :: ls =>
    if c = '\n' then ⟨[], .lf⟩ :: l :: ls
    else if c = '\r' then
      if l = ⟨[], .lf⟩ then ⟨[], .crlf⟩ :: ls else ⟨[], .cr⟩ :: l :: ls
    else l.push c :: ls

/-- The physical lines of a text. -/
def lines (t : Text) : List Line := t.foldr consLine []

/-- The text of some lines. -/
def ofLines (ls : List Line) : Text := ls.flatMap Line.text

def bodies (t : Text) : List Text := (lines t).map Line.body

/-- The ending of the last line of a text. -/
def ending (t : Text) : Ending :=
  match t.reverse with
  | [] => .open
  | c :: r =>
    if c = '\n' then (if r.head? = some (Rune.ofChar '\r') then .crlf else .lf)
    else if c = '\r' then .cr
    else .open

def stripEnding (t : Text) : Text := t.take (t.length - (ending t).text.length)

/-- The text without a byte order mark in front. -/
def dropBom : Text → Text
  | [] => []
  | c :: r => if c = Rune.bom then r else c :: r

end Text

end TodoLedger
