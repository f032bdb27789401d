import Admission.Time.Calendar

/-!
Moments as settings may hold them: a date, a time of day, or both, the latter with an offset from
universal time or without one.
-/

set_option autoImplicit false
set_option relaxedAutoImplicit false

namespace Admission

inductive Moment
  | date (d : Date)
  | time (t : ClockTime)
  /-- A date and a time of day; the offset is in microseconds. -/
  | dateTime (d : Date) (t : ClockTime) (offset : Option Int)
  deriving DecidableEq

namespace Moment

def dateText (d : Date) : String :=
  padded 4 d.year ++ "-" ++ padded 2 d.month ++ "-" ++ padded 2 d.day

def clockText (t : ClockTime) : String :=
  padded 2 t.hour ++ ":" ++ padded 2 t.minute ++ ":" ++ padded 2 t.second ++
    (if t.micro = 0 then "" else "." ++ padded 6 t.micro)

def offsetText (offset : Int) : String :=
  let t := ClockTime.ofMicros offset.natAbs
  (if offset < 0 then "-" else "+") ++ padded 2 t.hour ++ ":" ++ padded 2 t.minute ++
    (if t.second = 0 && t.micro = 0 then "" else ":" ++ padded 2 t.second) ++
    (if t.micro = 0 then "" else "." ++ padded 6 t.micro)

def text : Moment → String
  | date d => dateText d
  | time t => clockText t
  | dateTime d t offset =>
    dateText d ++ " " ++ clockText t ++ (offset.map offsetText).getD ""

/-- Hour and minute, with seconds and microseconds as far as they are needed. -/
def clockFields (t : ClockTime) : List Nat :=
  [t.hour, t.minute] ++
    (if t.micro ≠ 0 then [t.second, t.micro] else if t.second ≠ 0 then [t.second] else [])

def commaSeparated (fields : List String) : String :=
  String.intercalate ", " fields

/-- The offset as a span of days, seconds and microseconds, only the days negative. -/
def zoneCode (offset : Int) : String :=
  if offset = 0 then "datetime.timezone.utc"
  else
    let days := Int.fdiv offset microsPerDay
    let rest := (Int.fmod offset microsPerDay).toNat
    let part (name : String) (n : Int) := if n = 0 then [] else [name ++ "=" ++ toString n]
    "datetime.timezone(datetime.timedelta(" ++
      commaSeparated (part "days" days ++ part "seconds" (rest / 1000000 : Nat) ++
        part "microseconds" (rest % 1000000 : Nat)) ++ "))"

/-- The text of a moment inside a list. -/
def code : Moment → String
  | date d => "datetime.date(" ++ commaSeparated ([d.year, d.month, d.day].map toString) ++ ")"
  | time t => "datetime.time(" ++ commaSeparated ((clockFields t).map toString) ++ ")"
  | dateTime d t offset =>
    "datetime.datetime(" ++
      commaSeparated (([d.year, d.month, d.day] ++ clockFields t).map toString ++
        (offset.map fun o ↦ "tzinfo=" ++ zoneCode o).toList) ++ ")"

end Moment

end Admission
