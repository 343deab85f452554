import EngineClient.Text.Ascii
import EngineClient.Time.Calendar

/-!
# Dates in HTTP headers

The three forms of a date that HTTP knows: the fixed one (`Sun, 06 Nov 1994 08:49:37 GMT`), the one with the
weekday in full and a year of two digits, and the one without a zone. A date counts only if it exists and falls
on the weekday it names.
-/

namespace EngineClient

/-- A moment of the calendar, to the second. -/
structure HttpDate where
  weekday : Nat
  year : Nat
  month : Nat
  day : Nat
  hour : Nat
  minute : Nat
  second : Nat
  deriving DecidableEq, Repr

namespace HttpDate

def months : List String :=
  ["Jan", "Feb", "Mar", "Apr", "May", "Jun", "Jul", "Aug", "Sep", "Oct", "Nov", "Dec"]

def weekdays : List String :=
  ["Mon", "Tue", "Wed", "Thu", "Fri", "Sat", "Sun"]

def weekdaysInFull : List String :=
  ["Monday", "Tuesday", "Wednesday", "Thursday", "Friday", "Saturday", "Sunday"]

/-- The position of a name in a list, counted from 1. -/
def position? (names : List String) (cs : List Char) : Option Nat :=
  (names.findIdx? fun n => n.toList == cs).map (· + 1)

/-- `n` characters of a text from position `start` on. -/
def slice (cs : List Char) (start n : Nat) : List Char :=
  (cs.drop start).take n

def number? (cs : List Char) (start n : Nat) : Option Nat :=
  Text.natural? (slice cs start n)

def holds (cs : List Char) (start : Nat) (text : String) : Bool :=
  slice cs start text.length == text.toList

/-- Reads `08:49:37` at a position. -/
def clock? (cs : List Char) (start : Nat) : Option (Nat × Nat × Nat) := do
  guard (holds cs (start + 2) ":" && holds cs (start + 5) ":")
  return (← number? cs start 2, ← number? cs (start + 3) 2, ← number? cs (start + 6) 2)

/-- Reads `Sun, 06 Nov 1994 08:49:37 GMT`. -/
def fixed? (cs : List Char) : Option HttpDate := do
  guard (cs.length = 29 && holds cs 3 ", " && holds cs 7 " " && holds cs 11 " " && holds cs 16 " "
    && holds cs 25 " GMT")
  let (hour, minute, second) ← clock? cs 17
  return {
    weekday := ← position? weekdays (slice cs 0 3)
    year := ← number? cs 12 4
    month := ← position? months (slice cs 8 3)
    day := ← number? cs 5 2
    hour, minute, second }

/-- Reads `Sunday, 06-Nov-94 08:49:37 GMT`; years from 70 on belong to the last century. -/
def full? (cs : List Char) : Option HttpDate := do
  let name := cs.takeWhile (· != ',')
  guard (holds cs name.length ", ")
  let cs := cs.drop (name.length + 2)
  guard (cs.length = 22 && holds cs 2 "-" && holds cs 6 "-" && holds cs 18 " GMT")
  let (hour, minute, second) ← clock? cs 10
  let year ← number? cs 7 2
  return {
    weekday := ← position? weekdaysInFull name
    year := if year < 70 then 2000 + year else 1900 + year
    month := ← position? months (slice cs 3 3)
    day := ← number? cs 0 2
    hour, minute, second }

/-- Reads `Sun Nov  6 08:49:37 1994`. -/
def zoneless? (cs : List Char) : Option HttpDate := do
  guard (cs.length = 24 && holds cs 3 " " && holds cs 7 " " && holds cs 10 " " && holds cs 19 " ")
  let (hour, minute, second) ← clock? cs 11
  return {
    weekday := ← position? weekdays (slice cs 0 3)
    year := ← number? cs 20 4
    month := ← position? months (slice cs 4 3)
    day := ← if holds cs 8 " " then number? cs 9 1 else number? cs 8 2
    hour, minute, second }

def dayNumber (d : HttpDate) : Nat :=
  Calendar.dayNumber d.year d.month d.day

/-- Whether there is such a date, with that weekday, from 1970 to 9999. -/
def isReal (d : HttpDate) : Bool :=
  d.second < 60 && d.minute < 60 && d.hour < 24 && 1970 ≤ d.year && d.year ≤ 9999
    && 1 ≤ d.day && d.day ≤ Calendar.daysInMonth d.year d.month && Calendar.weekday d.dayNumber == d.weekday

def unixSeconds (d : HttpDate) : Nat :=
  ((d.dayNumber * 24 + d.hour) * 60 + d.minute) * 60 + d.second

def parse? (cs : List Char) : Option HttpDate :=
  ((fixed? cs).or (full? cs) |>.or (zoneless? cs)).filter isReal

end HttpDate
end EngineClient
