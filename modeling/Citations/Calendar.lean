/-
**Days and times.**

A value from outside can be a day, or a time on a day with perhaps its distance from universal time.
Only days and times that exist can be made.

Main definitions:

* `Citations.Calendar.Fault` — why a day or a time does not exist;
* `Citations.Calendar.Day`, `Citations.Calendar.Time` — the days and the times on them;
* `Citations.Calendar.Day.make`, `Citations.Calendar.Time.make` — the day or the time of given
  numbers;
* `Citations.Calendar.Day.written`, `Citations.Calendar.Time.written` — how they are written.
-/

set_option relaxedAutoImplicit false
set_option autoImplicit false

namespace Citations.Calendar

/-! ### Distances -/

/-- The minutes of a day. -/
def minutesOfDay : Nat := 24 * 60

/-- A distance of some minutes in words: whole days, which may be below zero, and the seconds of the
last day. -/
def distanceWritten (minutes : Int) : String :=
  let days := minutes.fdiv minutesOfDay
  let seconds := minutes.fmod minutesOfDay * 60
  let parts := (if days = 0 then [] else ["days=" ++ toString days]) ++
    (if seconds = 0 then [] else ["seconds=" ++ toString seconds])
  "datetime.timedelta(" ++ (if parts.isEmpty then "0" else ", ".intercalate parts) ++ ")"

/-! ### What does not exist -/

/-- Why a day or a time does not exist. -/
inductive Fault where
  /-- The years are counted from one. -/
  | year (given : Nat)
  | month
  | day
  | hour
  | minute
  | second
  /-- The distance from universal time is a day or more. -/
  | distance (minutes : Int)
  deriving DecidableEq

/-- The words for a fault. -/
def Fault.message : Fault → String
  | .year given => "year " ++ toString given ++ " is out of range"
  | .month => "month must be in 1..12"
  | .day => "day is out of range for month"
  | .hour => "hour must be in 0..23"
  | .minute => "minute must be in 0..59"
  | .second => "second must be in 0..59"
  | .distance minutes =>
      "offset must be a timedelta strictly between -timedelta(hours=24) and " ++
        "timedelta(hours=24), not " ++ distanceWritten minutes ++ "."

/-! ### Days -/

/-- A day of the calendar. -/
structure Day where
  year : Nat
  month : Nat
  day : Nat
  deriving DecidableEq

/-- Whether a year has a day more than others. -/
def isLeap (year : Nat) : Bool := year % 4 = 0 && (year % 100 != 0 || year % 400 = 0)

/-- The number of days of a month. -/
def daysIn (year month : Nat) : Nat :=
  if month = 2 then (if isLeap year then 29 else 28)
  else if [4, 6, 9, 11].contains month then 30
  else 31

namespace Day

/-- **The day of given numbers**, the year having at most four digits. -/
def make (year month day : Nat) : Except Fault Day :=
  if year = 0 ∨ 9999 < year then .error (.year year)
  else if month = 0 ∨ 12 < month then .error .month
  else if day = 0 ∨ daysIn year month < day then .error .day
  else .ok ⟨year, month, day⟩

/-- The numbers of a day with commas between them. -/
def numbers (d : Day) : String := ", ".intercalate ([d.year, d.month, d.day].map toString)

/-- How a day is written. -/
def written (d : Day) : String := "datetime.date(" ++ d.numbers ++ ")"

end Day

/-! ### Times -/

/-- A time on a day, to the millionth of a second.  The distance from universal time, in minutes,
may be unknown. -/
structure Time where
  day : Day
  hour : Nat
  minute : Nat
  second : Nat
  millionths : Nat
  distance : Option Int
  deriving DecidableEq

namespace Time

/-- The distance from universal time, which is less than a day. -/
def checkDistance (distance : Option Int) : Except Fault Unit :=
  match distance with
  | some minutes => if minutesOfDay ≤ minutes.natAbs then .error (.distance minutes) else .ok ()
  | none => .ok ()

/-- **The time of given numbers.**  The distance from universal time is looked at first. -/
def make (year month day hour minute second millionths : Nat) (distance : Option Int) :
    Except Fault Time := do
  checkDistance distance
  let d ← Day.make year month day
  if 23 < hour then throw .hour
  if 59 < minute then throw .minute
  if 59 < second then throw .second
  return ⟨d, hour, minute, second, millionths, distance⟩

/-- How a distance from universal time is written. -/
def zoneWritten (minutes : Int) : String :=
  if minutes = 0 then "datetime.timezone.utc"
  else "datetime.timezone(" ++ distanceWritten minutes ++ ")"

/-- How a time is written: millionths and then seconds are left out if there are none. -/
def written (t : Time) : String :=
  let seconds :=
    if t.millionths ≠ 0 then [t.second, t.millionths]
    else if t.second ≠ 0 then [t.second]
    else []
  let numbers := [t.hour, t.minute] ++ seconds
  let zone := (t.distance.map fun minutes => ", tzinfo=" ++ zoneWritten minutes).getD ""
  "datetime.datetime(" ++ t.day.numbers ++ String.join (numbers.map fun n => ", " ++ toString n) ++
    zone ++ ")"

end Time

end Citations.Calendar
