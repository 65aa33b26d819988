import ImportRepair.Text.Basic

/-!
# Dates and moments

Days of the proleptic calendar from year 1 to year 9999, and moments of a day with an optional
offset from universal time.
-/

namespace ImportRepair

/-- A day of the calendar. -/
structure Date where
  year : Nat
  month : Nat
  day : Nat
deriving DecidableEq, Repr

/-- A moment of a day. The offset from universal time is in minutes. -/
structure Moment where
  date : Date
  hour : Nat
  minute : Nat
  second : Nat
  micro : Nat
  offset : Option Int
deriving DecidableEq, Repr

/-- Why numbers are no date, no moment or no offset. -/
inductive CalendarError
  | year (n : Nat)
  | month
  | day
  | hour
  | minute
  | second
  | offset (minutes : Int)
deriving DecidableEq, Repr

namespace CalendarError

/-- A time span as the number of whole days, rounded down, and the seconds left. -/
def span (minutes : Int) : Text :=
  let days := minutes.fdiv 1440
  let seconds := minutes.fmod 1440 * 60
  let parts : List Text :=
    (if days = 0 then [] else [("days=" : Text) ++ Text.ofInt days]) ++
      (if seconds = 0 then [] else [("seconds=" : Text) ++ Text.ofInt seconds])
  "datetime.timedelta(" ++ (if parts.isEmpty then ("0" : Text) else Text.join ", " parts) ++ ")"

/-- The wording of the error. -/
def message : CalendarError → Text
  | .year n => "year " ++ Text.ofNat n ++ " is out of range"
  | .month => "month must be in 1..12"
  | .day => "day is out of range for month"
  | .hour => "hour must be in 0..23"
  | .minute => "minute must be in 0..59"
  | .second => "second must be in 0..59"
  | .offset minutes =>
    "offset must be a timedelta strictly between -timedelta(hours=24) and timedelta(hours=24), not "
      ++ span minutes ++ "."

end CalendarError

namespace Date

/-- Whether a year has a leap day. -/
def isLeap (year : Nat) : Bool := year % 4 = 0 && (year % 100 ≠ 0 || year % 400 = 0)

/-- The number of days of a month. -/
def daysIn (year month : Nat) : Nat :=
  if month = 2 then if isLeap year then 29 else 28
  else if month = 4 ∨ month = 6 ∨ month = 9 ∨ month = 11 then 30 else 31

/-- The date with these numbers, if there is one. -/
def of (year month day : Nat) : Except CalendarError Date :=
  if year = 0 ∨ 9999 < year then .error (.year year)
  else if month = 0 ∨ 12 < month then .error .month
  else if day = 0 ∨ daysIn year month < day then .error .day
  else .ok ⟨year, month, day⟩

/-- The number of days before the date. -/
def toDays (d : Date) : Nat :=
  let past := d.year - 1
  past * 365 + past / 4 - past / 100 + past / 400 +
    (List.range (d.month - 1)).foldl (fun days k => days + daysIn d.year (k + 1)) 0 + d.day

/-- Year, month and day with hyphens. -/
def display (d : Date) : Text :=
  Text.padLeft '0' 4 (Text.ofNat d.year) ++ "-" ++ Text.padLeft '0' 2 (Text.ofNat d.month) ++ "-" ++
    Text.padLeft '0' 2 (Text.ofNat d.day)

/-- The numbers of a date, as a list of arguments. -/
def arguments (d : Date) : List Text :=
  [Text.ofNat d.year, Text.ofNat d.month, Text.ofNat d.day]

end Date

namespace Moment

/-- The moment with these numbers, if there is one. The offset is checked first. -/
def of (year month day hour minute second micro : Nat) (offset : Option Int) :
    Except CalendarError Moment := do
  if let some minutes := offset then
    if 1440 ≤ minutes.natAbs then throw (.offset minutes)
  let date ← Date.of year month day
  if 23 < hour then throw .hour
  if 59 < minute then throw .minute
  if 59 < second then throw .second
  return ⟨date, hour, minute, second, micro, offset⟩

/-- Microseconds from the start of the calendar, by the clock that the moment shows. -/
def clockTime (m : Moment) : Int :=
  (((m.date.toDays * 24 + m.hour) * 60 + m.minute) * 60 + m.second) * 1000000 + m.micro

/-- Whether two moments are the same: with an offset both by universal time, without one both by the
clock. -/
def eq (m n : Moment) : Bool :=
  match m.offset, n.offset with
  | none, none => m.clockTime = n.clockTime
  | some a, some b => m.clockTime - a * 60000000 = n.clockTime - b * 60000000
  | _, _ => false

/-- An offset with a sign, hours and minutes. -/
def displayOffset (minutes : Int) : Text :=
  let n := minutes.natAbs
  (if minutes < 0 then "-" else "+" : Text) ++ Text.padLeft '0' 2 (Text.ofNat (n / 60)) ++ ":" ++
    Text.padLeft '0' 2 (Text.ofNat (n % 60))

/-- Date and time with a blank between them; microseconds only if there are some. -/
def display (m : Moment) : Text :=
  m.date.display ++ " " ++ Text.padLeft '0' 2 (Text.ofNat m.hour) ++ ":" ++
    Text.padLeft '0' 2 (Text.ofNat m.minute) ++ ":" ++ Text.padLeft '0' 2 (Text.ofNat m.second) ++
    (if m.micro = 0 then [] else ("." : Text) ++ Text.padLeft '0' 6 (Text.ofNat m.micro)) ++
    (m.offset.map displayOffset).getD []

/-- The numbers of a moment, as a list of arguments: trailing zeros of the time of day are left out
after the minute. -/
def arguments (m : Moment) : List Text :=
  m.date.arguments ++ [Text.ofNat m.hour, Text.ofNat m.minute] ++
    (if m.second = 0 ∧ m.micro = 0 then [] else [Text.ofNat m.second]) ++
    (if m.micro = 0 then [] else [Text.ofNat m.micro]) ++
    (m.offset.map fun minutes =>
      if minutes = 0 then [("tzinfo=datetime.timezone.utc" : Text)]
      else ["tzinfo=datetime.timezone(" ++ CalendarError.span minutes ++ ")"]).getD []

end Moment

end ImportRepair
