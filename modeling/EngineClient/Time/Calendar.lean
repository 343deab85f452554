/-!
# Calendar dates

Days of the Gregorian calendar counted from the first of January 1970, a Thursday.
-/

namespace EngineClient.Calendar

def isLeap (year : Nat) : Bool :=
  year % 4 == 0 && (year % 100 != 0 || year % 400 == 0)

def daysInMonth (year month : Nat) : Nat :=
  match month with
  | 2 => if isLeap year then 29 else 28
  | 4 | 6 | 9 | 11 => 30
  | _ => 31

/-- Days from the first of January of the year 1 to that of `year`. -/
def daysBeforeYear (year : Nat) : Nat :=
  let y := year - 1
  365 * y + y / 4 - y / 100 + y / 400

def daysBeforeMonth (year month : Nat) : Nat :=
  (List.range (month - 1)).foldl (fun days m => days + daysInMonth year (m + 1)) 0

/-- Days from the first of January 1970, for dates not before it. -/
def dayNumber (year month day : Nat) : Nat :=
  daysBeforeYear year - daysBeforeYear 1970 + daysBeforeMonth year month + (day - 1)

/-- The day of the week, Monday being 1 and Sunday 7. -/
def weekday (dayNumber : Nat) : Nat :=
  (dayNumber + 3) % 7 + 1

end EngineClient.Calendar
