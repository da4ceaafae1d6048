import TodoLedger.Text.CaseTable
import TodoLedger.Text.Rune
/-!
# Letter case

The full upper, lower and folded forms of a text, in which one character may become several, and
the matching of an ASCII word without regard to case, in which one character stands against one.
-/

namespace TodoLedger

namespace Text

def CaseRun.image? (r : CaseRun) (n : Nat) : Option Nat :=
  if r.first ≤ n && n ≤ r.last && (n - r.first) % r.step = 0 then some (n + r.shift).toNat
  else none

/-- The image of a code point outside ASCII. -/
def mapped (runs : List CaseRun) (expansions : List (Nat × List Nat)) (c : Rune) : Text :=
  match expansions.lookup c.code with
  | some image => image.map Rune.ofNat
  | none => [Rune.ofNat ((runs.findSome? (·.image? c.code)).getD c.code)]

end Text

namespace Rune

def upper (c : Rune) : Text :=
  if c.code < 0x80 then
    [if 97 ≤ c.code && c.code ≤ 122 then ofNat (c.code - 32) else c]
  else Text.mapped Text.upperRuns Text.upperExpansions c

/-- The lower-case form where nothing around the character matters. -/
def lower (c : Rune) : Text :=
  if c.code < 0x80 then
    [if 65 ≤ c.code && c.code ≤ 90 then ofNat (c.code + 32) else c]
  else Text.mapped Text.lowerRuns Text.lowerExpansions c

def fold (c : Rune) : Text :=
  if c.code < 0x80 then
    [if 65 ≤ c.code && c.code ≤ 90 then ofNat (c.code + 32) else c]
  else Text.mapped Text.foldRuns Text.foldExpansions c

/-- The lower-case ASCII letter of which a character is a case variant, else the character itself.
The Kelvin sign, the dotted and dotless I and the long s are variants of ASCII letters. -/
def letter (c : Rune) : Rune :=
  if 65 ≤ c.code && c.code ≤ 90 then ofNat (c.code + 32)
  else if c.code = 0x212A then 'k'
  else if c.code = 0x130 || c.code = 0x131 then 'i'
  else if c.code = 0x17F then 's'
  else c

end Rune

namespace Text

def upper (t : Text) : Text := t.flatMap Rune.upper

def fold (t : Text) : Text := t.flatMap Rune.fold

/-- The first character that a capital sigma does not look through is cased. -/
def seesCased (t : Text) : Bool :=
  match t.dropWhile (Rune.within caseIgnorableRanges) with
  | [] => false
  | c :: _ => c.within casedRanges

/-- The lower-case form of a text that follows `seen`, given backwards. A capital sigma at the end
of a word becomes a final sigma. -/
def lowerAfter (seen : Text) : Text → Text
  | [] => []
  | c :: r =>
    (if c.code = 0x3A3 then
      [Rune.ofNat (if seesCased seen && !seesCased r then 0x3C2 else 0x3C3)]
    else c.lower) ++ lowerAfter (c :: seen) r

def lower (t : Text) : Text := lowerAfter [] t

/-- The rest of a text after an ASCII word in any case. -/
def dropWord? : Text → Text → Option Text
  | [], t => some t
  | _ :: _, [] => none
  | a :: p, b :: t => if a.letter = b.letter then dropWord? p t else none

end Text

end TodoLedger
