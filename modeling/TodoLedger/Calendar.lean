import TodoLedger.Text.Rune
/-!
# Dates and times

Dates of the Gregorian calendar in the years 1 to 9999, with a time of day to the microsecond and
no time zone.
-/

namespace TodoLedger

namespace Calendar

def isLeap (year : Nat) : Bool := year % 4 = 0 && (year % 100 != 0 || year % 400 = 0)

def daysInMonth (year month : Nat) : Nat :=
  match month with
  | 2 => if isLeap year then 29 else 28
  | 4 | 6 | 9 | 11 => 30
  | _ => 31

def IsDate (year month day : Nat) : Prop :=
  (1 ≤ year ∧ year ≤ 9999) ∧ (1 ≤ month ∧ month ≤ 12) ∧ 1 ≤ day ∧ day ≤ daysInMonth year month

def IsTime (hour minute second micro : Nat) : Prop :=
  hour ≤ 23 ∧ minute ≤ 59 ∧ second ≤ 59 ∧ micro ≤ 999999

instance (year month day : Nat) : Decidable (IsDate year month day) :=
  inferInstanceAs (Decidable (_ ∧ _))

instance (hour minute second micro : Nat) : Decidable (IsTime hour minute second micro) :=
  inferInstanceAs (Decidable (_ ∧ _))

/-- The days in the years before a year. -/
def daysBeforeYear (year : Nat) : Nat :=
  let n := year - 1
  365 * n + n / 4 - n / 100 + n / 400

/-- The days in a year before a month. -/
def daysBeforeMonth (year month : Nat) : Nat :=
  (List.range (month - 1)).foldl (fun days m => days + daysInMonth year (m + 1)) 0

/-- The number of a day, counted from the first day of year 1. -/
def dayNumber (year month day : Nat) : Nat :=
  daysBeforeYear year + daysBeforeMonth year month + day

def weekdayNames : List String := ["Mon", "Tue", "Wed", "Thu", "Fri", "Sat", "Sun"]

/-- The first day of year 1 was a Monday. -/
def weekdayName (year month day : Nat) : Text :=
  (weekdayNames.getD ((dayNumber year month day + 6) % 7) "").toText

end Calendar

structure DateTime where
  year : Nat
  month : Nat
  day : Nat
  hour : Nat
  minute : Nat
  second : Nat
  micro : Nat
  isDate : Calendar.IsDate year month day
  isTime : Calendar.IsTime hour minute second micro
deriving DecidableEq

/-- The first part of a date or time that is out of range. -/
inductive RangeFault
  | year (n : Nat)
  | month
  | day
  | hour
  | minute
deriving DecidableEq

def RangeFault.message : RangeFault → Text
  | year n => "year " ++ Text.ofNat n ++ " is out of range"
  | month => "month must be in 1..12"
  | day => "day is out of range for month"
  | hour => "hour must be in 0..23"
  | minute => "minute must be in 0..59"

namespace DateTime

def make? (year month day hour minute second micro : Nat) : Option DateTime :=
  if hd : Calendar.IsDate year month day then
    if ht : Calendar.IsTime hour minute second micro then
      some ⟨year, month, day, hour, minute, second, micro, hd, ht⟩
    else none
  else none

/-- The start of a minute, its parts checked from the year down. -/
def ofMinute (year month day hour minute : Nat) : Except RangeFault DateTime :=
  if hy : ¬(1 ≤ year ∧ year ≤ 9999) then .error (.year year)
  else if hm : ¬(1 ≤ month ∧ month ≤ 12) then .error .month
  else if hd : ¬(1 ≤ day ∧ day ≤ Calendar.daysInMonth year month) then .error .day
  else if hh : ¬hour ≤ 23 then .error .hour
  else if hi : ¬minute ≤ 59 then .error .minute
  else .ok ⟨year, month, day, hour, minute, 0, 0,
    ⟨Decidable.not_not.mp hy, Decidable.not_not.mp hm, Decidable.not_not.mp hd⟩,
    ⟨Decidable.not_not.mp hh, Decidable.not_not.mp hi, by decide, by decide⟩⟩

/-- The first moment of a minute. -/
def startOfMinute (t : DateTime) : DateTime :=
  { t with second := 0, micro := 0, isTime := ⟨t.isTime.1, t.isTime.2.1, by decide, by decide⟩ }

/-- One microsecond later; the last moment of the calendar stays. -/
def next (t : DateTime) : DateTime :=
  let later :=
    if t.micro < 999999 then make? t.year t.month t.day t.hour t.minute t.second (t.micro + 1)
    else if t.second < 59 then make? t.year t.month t.day t.hour t.minute (t.second + 1) 0
    else if t.minute < 59 then make? t.year t.month t.day t.hour (t.minute + 1) 0 0
    else if t.hour < 23 then make? t.year t.month t.day (t.hour + 1) 0 0 0
    else if t.day < Calendar.daysInMonth t.year t.month then
      make? t.year t.month (t.day + 1) 0 0 0 0
    else if t.month < 12 then make? t.year (t.month + 1) 1 0 0 0 0
    else make? (t.year + 1) 1 1 0 0 0 0
  later.getD t

/-- Year, month and day without separators; the year is not filled with zeros. -/
def dateDigits (t : DateTime) : Text :=
  Text.ofNat t.year ++ Text.padded 2 t.month ++ Text.padded 2 t.day

def timeDigits (t : DateTime) : Text :=
  Text.padded 2 t.hour ++ Text.padded 2 t.minute ++ Text.padded 2 t.second

end DateTime

end TodoLedger
