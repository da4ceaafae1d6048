import TodoLedger.Text.PrintTable
import TodoLedger.Text.Rune
/-!
# Quoted text

A text between quotes, with the characters that cannot be shown written as escapes. Apostrophes
are used unless the text holds one and no double quote.
-/

namespace TodoLedger

def Rune.isPrintable (c : Rune) : Bool :=
  if c.code < 0x80 then 32 ≤ c.code && c.code < 127 else c.within Text.printableRanges

namespace Text

def escapeMark (c : Char) (rest : Text) : Text := Rune.ofChar '\\' :: Rune.ofChar c :: rest

/-- A character as it stands between two quotes. -/
def quotedRune (quote c : Rune) : Text :=
  if c = quote || c = '\\' then [Rune.ofChar '\\', c]
  else if c = '\t' then escapeMark 't' []
  else if c = '\n' then escapeMark 'n' []
  else if c = '\r' then escapeMark 'r' []
  else if c.isPrintable then [c]
  else if c.code < 0x100 then escapeMark 'x' (hex 2 c.code)
  else if c.code < 0x10000 then escapeMark 'u' (hex 4 c.code)
  else escapeMark 'U' (hex 8 c.code)

def quoted (t : Text) : Text :=
  let apostrophe := Rune.ofChar '\''
  let quote := if t.contains apostrophe && !t.contains (Rune.ofChar '"') then Rune.ofChar '"'
    else apostrophe
  quote :: t.flatMap (quotedRune quote) ++ [quote]

end Text

end TodoLedger
