import TodoLedger.Text.Rune
/-!
# Blank characters

White space, and the trimming and splitting that rest on it.
-/

namespace TodoLedger

/-- The white space characters: the separators of Unicode together with the control characters
that separate (tab to carriage return, `U+001C` to `U+001F`, `U+0085`). -/
def Rune.isBlank (c : Rune) : Bool :=
  if c.code < 0x80 then
    (9 ≤ c.code && c.code ≤ 13) || (28 ≤ c.code && c.code ≤ 32)
  else
    c.within [(0x85, 0x85), (0xA0, 0xA0), (0x1680, 0x1680), (0x2000, 0x200A), (0x2028, 0x2029),
      (0x202F, 0x202F), (0x205F, 0x205F), (0x3000, 0x3000)]

def Rune.isSpaceOrTab (c : Rune) : Bool := c = ' ' || c = '\t'

namespace Text

def isBlank (t : Text) : Bool := t.all Rune.isBlank

def trimStart (t : Text) : Text := t.dropWhile Rune.isBlank

def trimEnd (t : Text) : Text := (t.reverse.dropWhile Rune.isBlank).reverse

def trim (t : Text) : Text := trimEnd (trimStart t)

/-- The blank run that a text begins with. -/
def indent (t : Text) : Text := t.takeWhile Rune.isBlank

theorem indent_append_trimStart (t : Text) : indent t ++ trimStart t = t :=
  List.takeWhile_append_dropWhile

/-- Cuts a text into its words, the first of which may still be growing. -/
def wordsStep (c : Rune) : Text × List Text → Text × List Text
  | (word, words) =>
    if c.isBlank then ([], if word.isEmpty then words else word :: words)
    else (c :: word, words)

/-- The maximal runs of characters that are not blank, in order. -/
def words (t : Text) : List Text :=
  let (word, words) := t.foldr wordsStep ([], [])
  if word.isEmpty then words else word :: words

end Text

end TodoLedger
