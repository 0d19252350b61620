import RecordQuery.Number.Digits
import RecordQuery.Unicode.Blank
/-!
# Timestamps

A timestamp is a moment of a day of the proleptic Gregorian calendar, to the nanosecond. It is written
`yyyy-MM-dd HH:mm:ss`, without the nanoseconds; a day alone stands for its midnight. What is written has a
year of four digits, and a timestamp that is not read from a text may have any year of the calendar.

A second may have another one behind it, in which the nanoseconds go on from 1,000,000,000. So the second
that is numbered 60 is the one behind the second 59: it comes after all of that and before the next minute.
-/

namespace RecordQuery

/-- `isLeapYear year` holds for the years with a 29 February. -/
def isLeapYear (year : Int) : Bool :=
  year % 4 == 0 && (year % 100 != 0 || year % 400 == 0)

/-- How many days a month has; a number that names no month has none. -/
def daysInMonth (year : Int) (month : Nat) : Nat :=
  if month = 2 then if isLeapYear year then 29 else 28
  else if month = 4 ∨ month = 6 ∨ month = 9 ∨ month = 11 then 30
  else if 1 ≤ month ∧ month ≤ 12 then 31
  else 0

/-- How many nanoseconds a second has. -/
def nanosecondsPerSecond : Nat :=
  1000000000

/-- A moment of a calendar day. -/
structure Timestamp where
  year : Int
  month : Nat
  day : Nat
  hour : Nat
  minute : Nat
  second : Nat
  nanosecond : Nat
  le_year : -262143 ≤ year
  year_le : year ≤ 262142
  month_pos : 1 ≤ month
  month_le : month ≤ 12
  day_pos : 1 ≤ day
  day_le : day ≤ daysInMonth year month
  hour_lt : hour < 24
  minute_lt : minute < 60
  second_lt : second < 60
  nanosecond_lt : nanosecond < 2 * nanosecondsPerSecond
deriving DecidableEq, Repr

namespace Timestamp

/-- The timestamp with the given parts, if the day exists and the time is one of a day. -/
def ofParts? (year month day hour minute second : Nat) : Option Timestamp :=
  if h : year < 10000 ∧ 1 ≤ month ∧ month ≤ 12 ∧ 1 ≤ day ∧ day ≤ daysInMonth year month ∧
      hour < 24 ∧ minute < 60 ∧ second ≤ 60 then
    some
      { year, month, day, hour, minute
        second := min second 59
        nanosecond := (second - 59) * nanosecondsPerSecond
        le_year := by omega
        year_le := by omega
        month_pos := h.2.1
        month_le := h.2.2.1
        day_pos := h.2.2.2.1
        day_le := h.2.2.2.2.1
        hour_lt := h.2.2.2.2.2.1
        minute_lt := h.2.2.2.2.2.2.1
        second_lt := by omega
        nanosecond_lt := by unfold nanosecondsPerSecond; omega }
  else none

/-- The place of a timestamp in time: its parts as the digits of one number. -/
def orderKey (t : Timestamp) : Int :=
  (((((t.year * 13 + t.month) * 32 + t.day) * 24 + t.hour) * 60 + t.minute) * 60 + t.second) *
    (2 * nanosecondsPerSecond : Nat) + t.nanosecond

/-- Earlier timestamps come first. -/
def compare (a b : Timestamp) : Ordering :=
  Ord.compare a.orderKey b.orderKey

/-! ## Writing -/

/-- The sign in front of a year: the years from 0 to 9999 have none. -/
def yearSign (year : Int) : List Char :=
  if year < 0 then ['-'] else if year < 10000 then [] else ['+']

/-- The number of a second in its minute: the one behind another has the next number. -/
def clockSecond (t : Timestamp) : Nat :=
  t.second + t.nanosecond / nanosecondsPerSecond

/-- The day and the time, with `separator` between them. -/
def renderWith (separator : Char) (t : Timestamp) : String :=
  String.ofList
    (yearSign t.year ++ Digits.padded 4 t.year.natAbs ++
      '-' :: Digits.padded 2 t.month ++ '-' :: Digits.padded 2 t.day ++
      separator :: Digits.padded 2 t.hour ++ ':' :: Digits.padded 2 t.minute ++
      ':' :: Digits.padded 2 t.clockSecond)

/-- The text of a timestamp. -/
def render (t : Timestamp) : String :=
  t.renderWith ' '

/-- The part of a second behind the point, in as many groups of three digits as it takes. -/
def fractionText (t : Timestamp) : List Char :=
  let n := t.nanosecond % nanosecondsPerSecond
  if n = 0 then []
  else if n % 1000000 = 0 then '.' :: Digits.padded 3 (n / 1000000)
  else if n % 1000 = 0 then '.' :: Digits.padded 6 (n / 1000)
  else '.' :: Digits.padded 9 n

/-- The text of a timestamp with everything that it holds. -/
def renderFully (t : Timestamp) : String :=
  t.renderWith 'T' ++ String.ofList t.fractionText

/-! ## Reading -/

/-- A number of exactly `width` digits in front of the text, and the text behind it. -/
def field? (width : Nat) (text : List Char) : Option (Nat × List Char) := do
  let number ← Digits.natural? (text.take width)
  if (text.take width).length = width then some (number, text.drop width) else none

/-- The text behind `c`, if that is what it starts with. -/
def after? (c : Char) : List Char → Option (List Char)
  | d :: rest => if d = c then some rest else none
  | [] => none

/-- A day, or a day and a time with one space between, and nothing else. -/
def readExact? (text : List Char) : Option Timestamp := do
  let (year, text) ← field? 4 text
  let (month, text) ← field? 2 (← after? '-' text)
  let (day, text) ← field? 2 (← after? '-' text)
  if text.isEmpty then ofParts? year month day 0 0 0
  else
    let (hour, text) ← field? 2 (← after? ' ' text)
    let (minute, text) ← field? 2 (← after? ':' text)
    let (second, text) ← field? 2 (← after? ':' text)
    if text.isEmpty then ofParts? year month day hour minute second else none

/-- Reads a timestamp with white space around it. -/
def read? (text : String) : Option Timestamp :=
  readExact? (Unicode.trim text.toList)

end Timestamp

end RecordQuery
