import TodoLedger.Text.Blank
/-!
# Line breaks of running text

In running text more characters break a line than in a file: form feeds, the separators `U+001C`
to `U+001E`, the next-line control and the Unicode line and paragraph separators.
-/

namespace TodoLedger

def Rune.isBreak (c : Rune) : Bool :=
  (10 ≤ c.code && c.code ≤ 13) || (28 ≤ c.code && c.code ≤ 30) || c.code = 0x85 ||
    c.code = 0x2028 || c.code = 0x2029

namespace Text

/-- The pieces between line breaks; a break at the very end opens no further piece. -/
def pieces : Text → List Text
  | [] => []
  | [c] => if c.isBreak then [[]] else [[c]]
  | c :: d :: r =>
    if c = '\r' && d = '\n' then [] :: pieces r
    else if c.isBreak then [] :: pieces (d :: r)
    else match pieces (d :: r) with
      | [] => [[c]]
      | p :: ps => (c :: p) :: ps

/-- A text on one line: every line break becomes a space, and the ends are trimmed. -/
def singleLine (t : Text) : Text := trim (join " " (pieces t))

end Text

end TodoLedger
