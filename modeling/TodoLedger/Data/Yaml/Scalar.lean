import TodoLedger.Data.Yaml.Quoted
import TodoLedger.Text.Case
import TodoLedger.Text.Search
/-!
# Plain scalars

What a scalar without quotes means: nothing, a truth value, a number, a date, or a text.
-/

namespace TodoLedger.Yaml

open Json (decimal)

def nullWords : List String := ["", "~", "null", "Null", "NULL"]

def trueWords : List String := ["yes", "Yes", "YES", "true", "True", "TRUE", "on", "On", "ON"]

def falseWords : List String := ["no", "No", "NO", "false", "False", "FALSE", "off", "Off", "OFF"]

def unboundedWords : List String :=
  [".inf", ".Inf", ".INF", "+.inf", "+.Inf", "+.INF", "-.inf", "-.Inf", "-.INF", ".nan", ".NaN",
    ".NAN"]

def isOneOf (words : List String) (t : Text) : Bool := words.any fun w => w.toText = t

def isLowLine (c : Rune) : Bool := c = '_'

def isDigitOrLowLine (c : Rune) : Bool := c.isAsciiDigit || isLowLine c

def dropLowLines (t : Text) : Text := t.filter fun c => !isLowLine c

/-- The sign of a number and the text behind it. -/
def splitSign (t : Text) : Bool × Text :=
  match t with
  | [] => (false, [])
  | c :: r => if c = '-' then (true, r) else if c = '+' then (false, r) else (false, t)

def inBase (base : Nat) (t : Text) : Nat :=
  (dropLowLines t).foldl (fun n c => base * n + (Json.hexDigit? c).getD 0) 0

/-- Digits below a base, low lines between them. -/
def isNumeral (base : Nat) (t : Text) : Bool :=
  !t.isEmpty && t.all fun c => isLowLine c || ((Json.hexDigit? c).any fun n => n < base)

/-- A part of a number in base sixty: at most two digits, below sixty. -/
def isSixtieth (t : Text) : Bool :=
  !t.isEmpty && t.length ≤ 2 && t.all Rune.isAsciiDigit && decimal t < 60

/-- The natural number that a text without sign means. -/
def natOf? (t : Text) : Option Nat :=
  match t with
  | [] => none
  | a :: r =>
    if a = '0' then
      match r with
      | [] => some 0
      | b :: digits =>
        if b = 'b' && isNumeral 2 digits then some (inBase 2 digits)
        else if b = 'x' && isNumeral 16 digits then some (inBase 16 digits)
        else if isNumeral 8 r then some (inBase 8 r)
        else none
    else if a.isAsciiDigit then
      match Text.splitAt ':' t with
      | [digits] => if digits.all isDigitOrLowLine then some (inBase 10 digits) else none
      | whole :: parts =>
        if whole.all isDigitOrLowLine && parts.all isSixtieth then
          some (parts.foldl (fun n p => 60 * n + decimal p) (inBase 10 whole))
        else none
      | [] => none
    else none

/-- The exponent of a number, which has a sign. -/
def exponentOf? (t : Text) : Option Int :=
  match t with
  | [] => some 0
  | e :: s :: digits =>
    if (e = 'e' || e = 'E') && !digits.isEmpty && digits.all Rune.isAsciiDigit then
      if s = '-' then some (-(decimal digits : Int))
      else if s = '+' then some (decimal digits)
      else none
    else none
  | _ => none

/-- The number with a point that a text without sign means, its whole part at most in base
sixty. -/
def pointed? (negative : Bool) (t : Text) : Option Data := do
  let whole := t.takeWhile fun c => isDigitOrLowLine c || c = ':'
  match t.drop whole.length with
  | [] => none
  | c :: r =>
    if c = '.' && whole.head?.any Rune.isAsciiDigit then
      let fraction := r.takeWhile isDigitOrLowLine
      let digits := dropLowLines fraction
      let value (n : Nat) (exponent : Int) :=
        Data.ofDecimal negative n (decimal digits) digits.length exponent
      let rest := r.drop fraction.length
      match Text.splitAt ':' whole with
      | [whole] => some (value (inBase 10 whole) (← exponentOf? rest))
      | whole :: parts =>
        if rest.isEmpty && whole.all isDigitOrLowLine && parts.all isSixtieth then
          some (value (parts.foldl (fun n p => 60 * n + decimal p) (inBase 10 whole)) 0)
        else none
      | [] => none
    else none

/-- The number below one that is written from its point on. -/
def fractional? (t : Text) : Option Data := do
  match t with
  | c :: d :: r =>
    if c = '.' && d.isAsciiDigit then
      let fraction := (d :: r).takeWhile isDigitOrLowLine
      let digits := dropLowLines fraction
      let exponent ← exponentOf? ((d :: r).drop fraction.length)
      some (Data.ofDecimal false 0 (decimal digits) digits.length exponent)
    else none
  | _ => none

/-- The number with a point that a text means. -/
def realOf? (t : Text) : Option Data :=
  let (negative, rest) := splitSign t
  (pointed? negative rest).or (fractional? t)

/-- Drops so many digits from a text, at least some and at most some. -/
def dropDigits? (least most : Nat) (t : Text) : Option Text :=
  let digits := (t.take most).takeWhile Rune.isAsciiDigit
  if least ≤ digits.length then some (t.drop digits.length) else none

def dropMark? (mark : Rune) : Text → Option Text
  | [] => none
  | c :: r => if c = mark then some r else none

/-- Nothing, or a zone of time behind blanks. -/
def isZone (t : Text) : Bool :=
  t.isEmpty || match t.dropWhile Rune.isSpaceOrTab with
    | [] => false
    | c :: r =>
      if c = 'Z' then r.isEmpty
      else (c = '+' || c = '-') && match dropDigits? 1 2 r with
        | none => false
        | some [] => true
        | some r => ((dropMark? ':' r).bind (dropDigits? 2 2)).any List.isEmpty

/-- What follows a day, where a time of day is written. -/
def isTimeOfDay (t : Text) : Bool :=
  let blanks := t.takeWhile Rune.isSpaceOrTab
  let rest := if blanks.isEmpty then (dropMark? 'T' t).or (dropMark? 't' t)
    else some (t.drop blanks.length)
  (do
    let r ← dropDigits? 1 2 (← rest)
    let r ← dropDigits? 2 2 (← dropMark? ':' r)
    let r ← dropDigits? 2 2 (← dropMark? ':' r)
    match dropMark? '.' r with
    | none => some (isZone r)
    | some r => some (isZone (r.dropWhile Rune.isAsciiDigit))).getD false

/-- A date, or a date with a time of day behind it. -/
def isDate (t : Text) : Bool :=
  (do
    let r ← dropMark? '-' (← dropDigits? 4 4 t)
    let whole ← dropMark? '-' (← dropDigits? 1 2 r)
    let rest ← dropDigits? 1 2 whole
    some (t.length = 10 && rest.isEmpty || isTimeOfDay rest)).getD false

def mergeSign : Text := "<<"

def valueSign : Text := "="

/-- The meaning of a scalar without quotes. Two signs mean something as keys only. -/
def resolve? (t : Text) : Option Data :=
  let (negative, digits) := splitSign t
  if t = mergeSign || t = valueSign then none
  else if isOneOf nullWords t then some .null
  else if isOneOf trueWords t then some (.bool true)
  else if isOneOf falseWords t then some (.bool false)
  else if isOneOf unboundedWords t then some .unbounded
  else match natOf? digits with
    | some n => some (.int (if negative then -(n : Int) else n))
    | none =>
      match realOf? t with
      | some d => some d
      | none => some (if isDate t then .other else .text t)

/-- The meaning of a scalar that is said to be a whole number. -/
def integer? (t : Text) : Option Data :=
  let (negative, digits) := splitSign (dropLowLines t)
  (natOf? digits).map fun n => .int (if negative then -(n : Int) else n)

/-- The meaning of a scalar that is said to be a number. -/
def number? (t : Text) : Option Data :=
  let (negative, digits) := splitSign (dropLowLines t)
  let isWhole := !digits.isEmpty && digits.all Rune.isAsciiDigit
  if isOneOf unboundedWords t then some .unbounded
  else if isWhole then some (Data.ofDecimal negative (decimal digits) 0 0 0)
  else realOf? t

/-- The meaning of a scalar that is said to be a truth value. -/
def truth? (t : Text) : Option Data :=
  let word (words : List String) : Bool := words.any fun w => w.toText = Text.lower t
  if word trueWords then some (.bool true) else if word falseWords then some (.bool false)
  else none

end TodoLedger.Yaml
