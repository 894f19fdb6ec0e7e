-- Dates in headers, in three ways of writing them. A date stands for the
-- seconds since the start of 1970. It has to be there in the calendar, and on
-- the day of the week that is written with it.
import TurtleScript.Decimal.Digits
import TurtleScript.Text.Blank
import TurtleScript.Text.Split

namespace TurtleScript.Web

/-- A date, the day of the week that is written with it, counted from Monday, and a time of
day. -/
structure Moment where
  weekday : Nat
  year : Nat
  month : Nat
  day : Nat
  hour : Nat
  minute : Nat
  second : Nat
  deriving DecidableEq, Repr

/-! ## The calendar -/

def weekdayNames : List String :=
  ["Monday", "Tuesday", "Wednesday", "Thursday", "Friday", "Saturday", "Sunday"]

/-- The months by their short names. -/
def monthNames : List String :=
  ["Jan", "Feb", "Mar", "Apr", "May", "Jun", "Jul", "Aug", "Sep", "Oct", "Nov", "Dec"]

def isLeapYear (year : Nat) : Bool := year % 4 = 0 && (year % 100 ≠ 0 || year % 400 = 0)

/-- The lengths of the months of a year. -/
def monthLengths (year : Nat) : List Nat :=
  [31, if isLeapYear year then 29 else 28, 31, 30, 31, 30, 31, 31, 30, 31, 30, 31]

/-- The days from the start of 1970 to the start of a year. -/
def daysBeforeYear (year : Nat) : Nat :=
  365 * (year - 1970) + ((year - 1969) / 4 + (year - 1601) / 400 - (year - 1901) / 100)

namespace Moment

/-- The days since the start of 1970. -/
def days (m : Moment) : Nat :=
  ((monthLengths m.year).take (m.month - 1)).foldl (· + ·) (daysBeforeYear m.year) + (m.day - 1)

/-- The seconds since the start of 1970. -/
def seconds (m : Moment) : Nat := 86400 * m.days + 3600 * m.hour + 60 * m.minute + m.second

/-- There is such a date and time, and it falls on that day of the week. The first day of 1970
was a Thursday. -/
def isValid (m : Moment) : Bool :=
  1970 ≤ m.year && m.year ≤ 9999 && 1 ≤ m.day && m.day ≤ (monthLengths m.year).getD (m.month - 1) 0 &&
    m.hour < 24 && m.minute < 60 && m.second < 60 && (m.days + 3) % 7 = m.weekday

end Moment

/-! ## Reading -/

/-- A number of so many digits. -/
def fixedNumber? (count : Nat) (cs : List Char) : Option Nat :=
  if cs.length = count ∧ cs.all Decimal.isDigit then some (Decimal.readDigits 0 cs) else none

def month? (cs : List Char) : Option Nat :=
  (monthNames.findIdx? (·.toList = cs)).map (· + 1)

/-- The number of a day of the week, by its full name. -/
def fullWeekday? (cs : List Char) : Option Nat := weekdayNames.findIdx? (·.toList = cs)

/-- The number of a day of the week, by its short name. -/
def shortWeekday? (cs : List Char) : Option Nat := weekdayNames.findIdx? (·.toList.take 3 = cs)

/-- What stands before a comma at the end. -/
def beforeComma? (cs : List Char) : Option (List Char) :=
  if cs.getLast? = some ',' then some cs.dropLast else none

/-- A year of two digits: up to 69 it is of the new century. -/
def shortYear? (cs : List Char) : Option Nat :=
  (fixedNumber? 2 cs).map fun n => if n < 70 then 2000 + n else 1900 + n

/-- The moment of the parts of a date and the time of a day. -/
def moment? (weekday year month day : Option Nat) (time : List Char) : Option Moment := do
  match splitAll ':' time with
  | [hour, minute, second] =>
    return ⟨← weekday, ← year, ← month, ← day, ← fixedNumber? 2 hour, ← fixedNumber? 2 minute,
      ← fixedNumber? 2 second⟩
  | _ => none

/-- A date as one of `Sun, 06 Nov 1994 08:49:37 GMT`, `Sunday, 06-Nov-94 08:49:37 GMT` and
`Sun Nov  6 08:49:37 1994`. -/
def parseMoment? (cs : List Char) : Option Moment :=
  match splitAll ' ' cs with
  | [weekday, day, month, year, time, ['G', 'M', 'T']] =>
    moment? ((beforeComma? weekday).bind shortWeekday?) (fixedNumber? 4 year) (month? month)
      (fixedNumber? 2 day) time
  | [weekday, date, time, ['G', 'M', 'T']] =>
    match splitAll '-' date with
    | [day, month, year] =>
      moment? ((beforeComma? weekday).bind fullWeekday?) (shortYear? year) (month? month)
        (fixedNumber? 2 day) time
    | _ => none
  | [weekday, month, [], day, time, year] =>
    moment? (shortWeekday? weekday) (fixedNumber? 4 year) (month? month) (fixedNumber? 1 day) time
  | [weekday, month, day, time, year] =>
    moment? (shortWeekday? weekday) (fixedNumber? 4 year) (month? month) (fixedNumber? 2 day) time
  | _ => none

/-- The seconds since the start of 1970 that a date in a header stands for. Signs beyond ASCII
may not even stand around it. -/
def dateSeconds? (s : String) : Option Nat := do
  let moment ← parseMoment? (trimBlanks s.toList)
  if moment.isValid ∧ s.toList.all (·.toNat < 0x80) then some moment.seconds else none

end TurtleScript.Web
