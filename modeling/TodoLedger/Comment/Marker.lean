import TodoLedger.Text.Blank
import TodoLedger.Text.Case
import TodoLedger.Text.Search
/-!
# Identity markers

A line whose task has become an issue carries `[orgi:id]`. A marker is read in any case and with
blanks around its id; a line that merely begins one counts as marked too.
-/

namespace TodoLedger.Marker

def opening : Text := "[orgi:"

/-- The characters of an id in a marker. -/
def isIdRune (c : Rune) : Bool := c ≠ Rune.ofChar ']' && !c.isBlank

/-- The id of a marker in front of a text, and the text behind the marker. -/
def read? (t : Text) : Option (Text × Text) := do
  let r := Text.trimStart (← Text.dropWord? opening t)
  let id := r.takeWhile isIdRune
  match Text.trimStart (r.drop id.length) with
  | [] => none
  | c :: rest => if c = ']' then some (id, rest) else none

/-- The first marker of a text: what stands before it, its id and what stands behind it. -/
def find? : Text → Option (Text × Text × Text)
  | [] => none
  | c :: r =>
    match read? (c :: r) with
    | some (id, rest) => some ([], id, rest)
    | none => (find? r).map fun (before, id, rest) => (c :: before, id, rest)

/-- The text without its first marker. -/
def remove (t : Text) : Text :=
  match find? t with
  | some (before, _, rest) => before ++ rest
  | none => t

/-- The beginning of a marker occurs in the lower-case form of the text. -/
def isBegun (t : Text) : Bool := Text.includes (Text.lower t) opening

/-- The id that a line is marked with; a marker that is only begun has the empty id. -/
def idOf? (line : Text) : Option Text :=
  match find? line with
  | some (_, id, _) => some id
  | none => if isBegun line then some [] else none

/-- The marker of an id. -/
def text (id : Text) : Text := opening ++ id ++ "]"

end TodoLedger.Marker
