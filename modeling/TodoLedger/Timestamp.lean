import TodoLedger.Calendar
import TodoLedger.Text.Digit
import TodoLedger.Text.Search
/-!
# Timestamps

A moment is written `<2025-12-18 Thu 14:30>` when it is active and `[2025-12-18 Thu 14:30]` when it
is not. A reader also takes a missing or foreign weekday, a missing time, which means midnight, and
a time with an end, of which the start counts.
-/

namespace TodoLedger

/-- Why a text is no timestamp. -/
inductive TimestampFault
  | empty
  | malformed (text : Text)
  | impossible (text : Text) (cause : RangeFault)
deriving DecidableEq

def TimestampFault.message : TimestampFault → Text
  | empty => "Timestamp cannot be empty"
  | malformed text => "Invalid org timestamp format: " ++ text
  | impossible text cause =>
    "Invalid date/time values in timestamp " ++ text ++ ": " ++ cause.message

/-- The characters of a weekday's name. -/
def Rune.isWeekdayLetter (c : Rune) : Bool := c.isAlphanumeric && !c.isDigit

namespace Timestamp

/-- A date and a time of day as they are written, in range or not. -/
structure Fields where
  year : Nat
  month : Nat
  day : Nat
  hour : Nat
  minute : Nat
deriving DecidableEq

/-- Reads exactly `n` digits. -/
def digits? (n : Nat) (t : Text) : Option (Nat × Text) :=
  let digits := t.take n
  if digits.length = n && digits.all Rune.isDigit then some (Text.digitsValue digits, t.drop n)
  else none

def skip? (c : Rune) : Text → Option Text
  | [] => none
  | a :: r => if a = c then some r else none

def date? (t : Text) : Option ((Nat × Nat × Nat) × Text) := do
  let (year, t) ← digits? 4 t
  let t ← skip? '-' t
  let (month, t) ← digits? 2 t
  let t ← skip? '-' t
  let (day, t) ← digits? 2 t
  some ((year, month, day), t)

/-- Reads an hour of one or two digits and a minute of two. -/
def clock? (t : Text) : Option ((Nat × Nat) × Text) := do
  let hour := t.takeWhile Rune.isDigit
  if hour.length = 1 || hour.length = 2 then
    let t ← skip? ':' (t.drop hour.length)
    let (minute, t) ← digits? 2 t
    some ((Text.digitsValue hour, minute), t)
  else none

/-- Drops blanks and a weekday, if both stand in front. -/
def dropWeekday (t : Text) : Text :=
  let r := Text.trimStart t
  let rest := r.dropWhile Rune.isWeekdayLetter
  if r.length < t.length && rest.length < r.length then (skip? '.' rest).getD rest else t

/-- Reads a time behind blanks, with or without an end. -/
def time? (t : Text) : Option ((Nat × Nat) × Text) := do
  let r := Text.trimStart t
  if r.length < t.length then
    let (start, r) ← clock? r
    match skip? '-' r with
    | none => some (start, r)
    | some r =>
      let (_, r) ← clock? r
      some (start, r)
  else none

/-- Reads what stands between the brackets. -/
def body? (t : Text) : Option Fields := do
  let ((year, month, day), t) ← date? t
  let t := dropWeekday t
  if Text.isBlank t then some ⟨year, month, day, 0, 0⟩
  else
    let ((hour, minute), t) ← time? t
    if Text.isBlank t then some ⟨year, month, day, hour, minute⟩ else none

/-- The text between an opening and a closing bracket at its ends. -/
def between? (opening closing : Rune) (t : Text) : Option Text := do
  let r ← skip? opening t
  let r ← skip? closing r.reverse
  some r.reverse

def fields? (t : Text) : Option Fields :=
  match between? '<' '>' t with
  | some body => body? body
  | none => (between? '[' ']' t).bind body?

def decode (text : Text) : Except TimestampFault DateTime :=
  let t := Text.trim text
  if t.isEmpty then .error .empty
  else match fields? t with
    | none => .error (.malformed text)
    | some f =>
      match DateTime.ofMinute f.year f.month f.day f.hour f.minute with
      | .ok moment => .ok moment
      | .error cause => .error (.impossible t cause)

def isValid (text : Text) : Bool := (decode text).toBool

def encode (moment : DateTime) (active : Bool) : Text :=
  let body : Text :=
    Text.ofNat moment.year ++ "-" ++ Text.padded 2 moment.month ++ "-" ++
      Text.padded 2 moment.day ++ " " ++
      Calendar.weekdayName moment.year moment.month moment.day ++ " " ++
      Text.padded 2 moment.hour ++ ":" ++ Text.padded 2 moment.minute
  if active then "<" ++ body ++ ">" else "[" ++ body ++ "]"

end Timestamp

end TodoLedger
