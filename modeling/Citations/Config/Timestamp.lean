/-
**Dates and times in a configuration file.**

A plain scalar such as `2024-01-31` is a day.  With a time behind it, it is a time, and then the
numbers of the date may have one digit; a fraction of a second and a distance from universal time
may follow.

Main definitions:

* `Citations.Yaml.Timestamp` — the numbers of a date and a time, as they are written;
* `Citations.Yaml.Timestamp.read?` — reads them;
* `Citations.Yaml.Timestamp.value` — the day or the time that they make.
-/

import Citations.Config.Fault
import Citations.Input.Value

set_option relaxedAutoImplicit false
set_option autoImplicit false

namespace Citations.Yaml

open Text

/-- A time of day as it is written: its numbers, and the distance from universal time in
minutes. -/
structure Clock where
  hour : Nat
  minute : Nat
  second : Nat
  millionths : Nat
  distance : Option Int

/-- A date, perhaps with a time. -/
structure Timestamp where
  year : Nat
  month : Nat
  day : Nat
  clock : Option Clock

namespace Timestamp

/-- A number with one of the given counts of digits, and what is behind it. -/
def number? (counts : List Nat) (cs : List Char) : Option (Nat × List Char) :=
  let ds := cs.takeWhile Char.isDigit
  if counts.contains ds.length then some (numeral ds, cs.drop ds.length) else none

/-- What is behind a mark. -/
def behind? (mark : Char) : List Char → Option (List Char)
  | [] => none
  | c :: cs => if c = mark then some cs else none

/-- The millionths of a second that the digits behind a point stand for. -/
def millionths (ds : List Char) : Nat :=
  numeral ((ds.take 6) ++ List.replicate (6 - ds.length) '0')

/-- The distance from universal time that ends a time: none, the letter `Z`, or hours with perhaps
minutes. -/
def distance? : List Char → Option (Option Int)
  | [] => some none
  | ['Z'] => some (some 0)
  | c :: cs =>
      if c = '+' ∨ c = '-' then do
        let (hours, rest) ← number? [1, 2] cs
        let minutes ← match rest with
          | [] => some 0
          | rest => do
              let (minutes, rest) ← number? [2] (← behind? ':' rest)
              if rest.isEmpty then some minutes else none
        let distance : Int := 60 * hours + minutes
        return some (if c = '-' then -distance else distance)
      else none

/-- A time of day. -/
def clock? (cs : List Char) : Option Clock := do
  let (hour, rest) ← number? [1, 2] cs
  let (minute, rest) ← number? [2] (← behind? ':' rest)
  let (second, rest) ← number? [2] (← behind? ':' rest)
  let (fraction, rest) := match rest with
    | '.' :: rest => (rest.takeWhile Char.isDigit, rest.dropWhile Char.isDigit)
    | rest => ([], rest)
  let distance ← distance? (rest.dropWhile (· = ' '))
  return ⟨hour, minute, second, millionths fraction, distance⟩

/-- What separates a date from a time: the letter `T`, or spaces. -/
def behindSeparator? : List Char → Option (List Char)
  | [] => none
  | c :: cs =>
      if c = 'T' ∨ c = 't' then some cs
      else if c = ' ' then some (cs.dropWhile (· = ' '))
      else none

/-- **Reads a date with or without a time.** -/
def read? (cs : List Char) : Option Timestamp := do
  let (year, rest) ← number? [4] cs
  let months ← behind? '-' rest
  let (month, rest) ← number? [1, 2] months
  let days ← behind? '-' rest
  let (day, rest) ← number? [1, 2] days
  if rest.isEmpty then
    -- without a time, the month and the day have two digits each
    if cs.length = 10 then some ⟨year, month, day, none⟩ else none
  else return ⟨year, month, day, some (← clock? (← behindSeparator? rest))⟩

/-- **The day or the time that a date stands for.** -/
def value (t : Timestamp) : Except Fault Value :=
  match t.clock with
  | none => ((Calendar.Day.make t.year t.month t.day).map Value.day).mapError .date
  | some c =>
      ((Calendar.Time.make t.year t.month t.day c.hour c.minute c.second c.millionths
        c.distance).map Value.time).mapError .date

end Timestamp

end Citations.Yaml
