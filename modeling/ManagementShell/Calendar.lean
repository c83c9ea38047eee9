import ManagementShell.Text.Numeral

/-
This file writes moments as dates and times of day, in universal time.
-/

namespace ManagementShell
open Text

/-- The weekday counts from Sunday, the month from January. -/
structure Moment where
  year : Nat
  month : Nat
  day : Nat
  weekday : Nat
  hour : Nat
  minute : Nat
  second : Nat
  deriving DecidableEq, Repr

namespace Moment

/-- The days of four hundred years. -/
def cycle : Nat := 146097

/-- The first of January 1970 is so many days after the first of March of the year 0. -/
def daysBefore : Nat := 719468

/-- Years begin in March here, so that a leap day comes last. -/
def yearOfDay (dayOfCycle : Nat) : Nat :=
  (dayOfCycle - dayOfCycle / 1460 + dayOfCycle / 36524 - dayOfCycle / (cycle - 1)) / 365

def ofSeconds (seconds : Nat) : Moment :=
  let days := seconds / 86400
  let rest := seconds % 86400
  let dayOfCycle := (days + daysBefore) % cycle
  let yearOfCycle := yearOfDay dayOfCycle
  let dayOfYear := dayOfCycle - (365 * yearOfCycle + yearOfCycle / 4 - yearOfCycle / 100)
  let monthOfYear := (5 * dayOfYear + 2) / 153
  let month := (monthOfYear + 2) % 12
  { year := 400 * ((days + daysBefore) / cycle) + yearOfCycle + (if month < 2 then 1 else 0)
    month := month
    day := dayOfYear - (153 * monthOfYear + 2) / 5 + 1
    weekday := (days + 4) % 7
    hour := rest / 3600
    minute := rest / 60 % 60
    second := rest % 60 }

/-- A number that is filled up on the left. -/
def padded (filling : Char) (width value : Nat) : Text :=
  let digits := ofNat value
  List.replicate (width - digits.length) filling ++ digits

/-- All digits from the year to the second. -/
def digits (moment : Moment) : Text :=
  padded '0' 4 moment.year ++ padded '0' 2 (moment.month + 1) ++ padded '0' 2 moment.day ++
    padded '0' 2 moment.hour ++ padded '0' 2 moment.minute ++ padded '0' 2 moment.second

def weekdays : List Text := ["Sun", "Mon", "Tue", "Wed", "Thu", "Fri", "Sat"]

def months : List Text :=
  ["Jan", "Feb", "Mar", "Apr", "May", "Jun", "Jul", "Aug", "Sep", "Oct", "Nov", "Dec"]

/-- The weekday, the day, the time and the year. -/
def stamp (moment : Moment) : Text :=
  weekdays.getD moment.weekday [] ++ " " ++ months.getD moment.month [] ++ " " ++
    padded ' ' 2 moment.day ++ " " ++ padded '0' 2 moment.hour ++ ":" ++
    padded '0' 2 moment.minute ++ ":" ++ padded '0' 2 moment.second ++ " " ++ ofNat moment.year

end Moment

end ManagementShell
