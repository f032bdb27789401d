/-!
The proleptic Gregorian calendar: dates, clock times, and the count of days and microseconds between
them and the beginning of 1970.
-/

set_option autoImplicit false
set_option relaxedAutoImplicit false

namespace Admission

structure Date where
  year : Nat
  month : Nat
  day : Nat
  deriving DecidableEq, Repr

structure ClockTime where
  hour : Nat
  minute : Nat
  second : Nat
  micro : Nat
  deriving DecidableEq, Repr

namespace Date

def isLeap (year : Nat) : Bool :=
  year % 4 == 0 && (year % 100 != 0 || year % 400 == 0)

def daysInMonth (year month : Nat) : Nat :=
  match month with
  | 2 => if isLeap year then 29 else 28
  | 4 => 30
  | 6 => 30
  | 9 => 30
  | 11 => 30
  | _ => 31

def daysBeforeYear (year : Nat) : Nat :=
  let y := year - 1
  y * 365 + y / 4 - y / 100 + y / 400

def daysBeforeMonth (year month : Nat) : Nat :=
  (List.range (month - 1)).foldl (fun days m ↦ days + daysInMonth year (m + 1)) 0

def valid (d : Date) : Bool :=
  1 ≤ d.year && d.year ≤ 9999 && 1 ≤ d.month && d.month ≤ 12 && 1 ≤ d.day &&
    d.day ≤ daysInMonth d.year d.month

/-- The number of a day, the first day of year 1 being number 1. -/
def ordinal (d : Date) : Nat :=
  daysBeforeYear d.year + daysBeforeMonth d.year d.month + d.day

/-- The day's number counted from the first day of 1970, which is 0. -/
def epochDay (d : Date) : Int :=
  (d.ordinal : Int) - 719163

/-- Months are passed while the remaining days fill them. -/
def inYear (year : Nat) : Nat → Nat → Nat → Date
  | 0, month, rest => ⟨year, month, rest + 1⟩
  | more + 1, month, rest =>
    if rest < daysInMonth year month then ⟨year, month, rest + 1⟩
    else inYear year more (month + 1) (rest - daysInMonth year month)

/-- The date with a given number. -/
def ofOrdinal (n : Nat) : Date :=
  let n := n - 1
  let (c400, n) := (n / 146097, n % 146097)
  let c100 := Nat.min (n / 36524) 3
  let n := n - c100 * 36524
  let (c4, n) := (n / 1461, n % 1461)
  let c1 := Nat.min (n / 365) 3
  inYear (c400 * 400 + c100 * 100 + c4 * 4 + c1 + 1) 11 1 (n - c1 * 365)

def ofEpochDay (n : Int) : Date :=
  ofOrdinal (n + 719163).toNat

/-- The day of the week, Monday being 0. -/
def weekday (d : Date) : Nat :=
  (d.ordinal + 6) % 7

/-- A year has 53 weeks if it begins on a Thursday, or on a Wednesday and is a leap year. -/
def hasLongWeeks (year : Nat) : Bool :=
  let first := weekday ⟨year, 1, 1⟩
  first == 3 || (first == 2 && isLeap year)

/-- The date of a day in a numbered week: the first week is the one with the year's first
Thursday. -/
def ofWeek? (year week day : Nat) : Option Date :=
  if year = 0 || week = 0 || 53 < week || (week = 53 && !hasLongWeeks year) then none
  else if day = 0 || 7 < day then none
  else
    let first := weekday ⟨year, 1, 1⟩
    let monday : Int := (ordinal ⟨year, 1, 1⟩ : Int) - first + (if 3 < first then 7 else 0)
    let n := monday + (week - 1) * 7 + (day - 1)
    if n < 1 then none else some (ofOrdinal n.toNat)

end Date

namespace ClockTime

def midnight : ClockTime := ⟨0, 0, 0, 0⟩

def valid (t : ClockTime) : Bool :=
  t.hour ≤ 23 && t.minute ≤ 59 && t.second ≤ 59 && t.micro ≤ 999999

/-- Microseconds since the day began. -/
def micros (t : ClockTime) : Nat :=
  ((t.hour * 60 + t.minute) * 60 + t.second) * 1000000 + t.micro

def ofMicros (n : Nat) : ClockTime :=
  let seconds := n / 1000000
  ⟨seconds / 3600, seconds / 60 % 60, seconds % 60, n % 1000000⟩

end ClockTime

/-- Microseconds in a day. -/
def microsPerDay : Nat := 86400000000

/-- Microseconds between the beginning of 1970 and a date and time of day. -/
def epochMicros (d : Date) (t : ClockTime) : Int :=
  d.epochDay * microsPerDay + t.micros

/-- A number in decimal digits, filled up with zeros to a width. -/
def padded (width n : Nat) : String :=
  let digits := Nat.toDigits 10 n
  String.ofList (List.replicate (width - digits.length) '0' ++ digits)

end Admission
