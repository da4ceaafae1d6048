import TodoLedger.Text.Blank
import TodoLedger.Text.DigitTable
import TodoLedger.Text.WordTable
/-!
# Digits, word characters and numerals

Decimal digits of every script, the characters that make up words, and the numerals written with
them. Decimal texts longer than a fixed number of digits are refused everywhere.
-/

namespace TodoLedger

namespace Rune

def isAsciiDigit (c : Rune) : Bool := 48 ≤ c.code && c.code ≤ 57

/-- The value of a decimal digit of any script. -/
def digit? (c : Rune) : Option Nat :=
  if c.code < 0x80 then
    if c.isAsciiDigit then some (c.code - 48) else none
  else
    (Text.decimalZeros.find? fun z => z ≤ c.code && c.code < z + 10).map (c.code - ·)

def isDigit (c : Rune) : Bool := c.digit?.isSome

def isAlphanumeric (c : Rune) : Bool :=
  if c.code < 0x80 then
    c.isAsciiDigit || (65 ≤ c.code && c.code ≤ 90) ||
      (97 ≤ c.code && c.code ≤ 122)
  else c.within Text.alphanumericRanges

/-- Letters, digits and other numbers of any script, and the low line. -/
def isWord (c : Rune) : Bool := c.isAlphanumeric || c = '_'

end Rune

namespace Text

/-- The longest decimal text that is read as a number. -/
def maxDigits : Nat := 4300

/-- The number a run of digits stands for; characters that are no digits count as zero. -/
def digitsValue (t : Text) : Nat :=
  t.foldl (fun n c => 10 * n + (c.digit?.getD 0)) 0

/-- Not empty, and digits throughout. -/
def isDecimal (t : Text) : Bool := !t.isEmpty && t.all Rune.isDigit

/-- The digits of a numeral, in which a single low line may stand between two digits. -/
def numeralDigits? : Text → Option Text
  | [] => none
  | [c] => if c.isDigit then some [c] else none
  | c :: d :: r =>
    if c.isDigit then
      if d = '_' then (numeralDigits? r).map (c :: ·)
      else (numeralDigits? (d :: r)).map (c :: ·)
    else none

/-- A numeral without sign, of at most `maxDigits` digits. -/
def toNat? (t : Text) : Option Nat := do
  let digits ← numeralDigits? t
  if digits.length ≤ maxDigits then some (digitsValue digits) else none

/-- A numeral with an optional sign, blanks around it ignored. -/
def toInt? (t : Text) : Option Int :=
  match trim t with
  | [] => none
  | c :: r =>
    if c = '-' then (toNat? r).map fun n => -(n : Int)
    else if c = '+' then (toNat? r).map Int.ofNat
    else (toNat? (c :: r)).map Int.ofNat

end Text

end TodoLedger
