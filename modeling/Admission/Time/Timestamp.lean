import Admission.Number.Binary64
import Admission.Text.Blank
import Admission.Text.Encoding
import Admission.Time.Calendar

/-!
Timestamps in the form of the international standard: a date by month or by week, in the basic or
the extended form, then any one character, a time of day and an offset. The reader works on octets.
A single octet that stands between the time and the sign of the offset is passed over.
-/

set_option autoImplicit false
set_option relaxedAutoImplicit false

namespace Admission.Timestamp

/-- An octet, as a number. -/
abbrev Octet := Nat

def digit? (b : Octet) : Option Nat :=
  if 48 ≤ b && b ≤ 57 then some (b - 48) else none

def isDigit (b : Octet) : Bool :=
  (digit? b).isSome

/-- A fixed number of digits, and what follows them. -/
def digits? : Nat → List Octet → Option (Nat × List Octet)
  | 0, bs => some (0, bs)
  | _ + 1, [] => none
  | n + 1, b :: rest => do
    let d ← digit? b
    let (more, rest) ← digits? n rest
    return (d * Nat.pow 10 n + more, rest)

def dash : Octet := 45
def plus : Octet := 43
def colon : Octet := 58
def point : Octet := 46
def comma : Octet := 44
def weekMark : Octet := 87

/-- The date that a text denotes as a whole; a week may be followed by more. -/
def date? (bs : List Octet) : Option Date := do
  let (year, rest) ← digits? 4 bs
  let extended := rest.head? == some dash
  let rest := if extended then rest.drop 1 else rest
  match rest with
  | b :: rest =>
    if b = weekMark then
      let (week, rest) ← digits? 2 rest
      match rest with
      | [] => Date.ofWeek? year week 1
      | c :: tail =>
        if extended && c != dash then none
        else
          let (day, _) ← digits? 1 (if extended then tail else rest)
          Date.ofWeek? year week day
    else
      let (month, rest) ← digits? 2 (b :: rest)
      let rest ← if extended then
          match rest with
          | c :: rest => if c = dash then some rest else none
          | [] => none
        else some rest
      let (day, rest) ← digits? 2 rest
      if rest.isEmpty then some ⟨year, month, day⟩ else none
  | [] => none

/-- A time of day, and whether something else follows it. -/
structure ClockReading where
  time : ClockTime
  more : Bool

/-- The digits behind the decimal mark: six count, further ones are dropped. -/
def fraction? (stop : Octet) (h m s : Nat) (bs : List Octet) : Option ClockReading := do
  let places := Nat.min 6 bs.length
  let (n, rest) ← digits? places bs
  let next := (rest.dropWhile isDigit).headD stop
  return ⟨⟨h, m, s, n * Nat.pow 10 (6 - places)⟩, next != 0⟩

/-- What follows a field of a time of day. -/
inductive FieldEnd
  | last (more : Bool)
  | next (bs : List Octet)
  | mark (bs : List Octet)

/-- Reads what separates fields: `separated` tells whether colons are used. -/
def fieldEnd? (stop : Octet) (separated : Bool) : List Octet → Option FieldEnd
  | [] => some (.last (stop != 0))
  | [c] => some (.last (c != 0))
  | c :: rest =>
    if separated && c == colon then some (.next rest)
    else if c == point || c == comma then some (.mark rest)
    else if separated then none
    else some (.next (c :: rest))

/-- A time of day at the beginning of the octets, which `stop` follows. A decimal mark may stand
behind any field, and behind the seconds whatever separates the fields stands for one. -/
def clock? (stop : Octet) (bs : List Octet) : Option ClockReading := do
  let (h, bs) ← digits? 2 bs
  let separated := bs.headD stop == colon
  match ← fieldEnd? stop separated bs with
  | .last more => return ⟨⟨h, 0, 0, 0⟩, more⟩
  | .mark bs => fraction? stop h 0 0 bs
  | .next bs =>
    let (m, bs) ← digits? 2 bs
    match ← fieldEnd? stop separated bs with
    | .last more => return ⟨⟨h, m, 0, 0⟩, more⟩
    | .mark bs => fraction? stop h m 0 bs
    | .next bs =>
      let (s, bs) ← digits? 2 bs
      match ← fieldEnd? stop separated bs with
      | .last more => return ⟨⟨h, m, s, 0⟩, more⟩
      | .mark bs => fraction? stop h m s bs
      | .next bs => fraction? stop h m s bs

/-- An offset in microseconds; one of less than a second counts as none. -/
def offsetOf (negative : Bool) (t : ClockTime) : Int :=
  let span := t.micros
  if span < 1000000 then 0 else if negative then -(span : Int) else span

/-- A time of day with its offset from universal time in microseconds, which may be missing. -/
def zonedClock? (bs : List Octet) : Option (ClockTime × Option Int) := do
  let notSign := fun b ↦ b != plus && b != dash
  let (front, zone) := bs.span notSign
  match zone with
  | [] =>
    let reading ← clock? 0 front
    if reading.more then none else some (reading.time, none)
  | sign :: zone =>
    let reading ← clock? sign front
    let offset ← clock? 0 zone
    if offset.more || microsPerDay ≤ offset.time.micros then none
    else some (reading.time, some (offsetOf (sign = dash) offset.time))

/-- The place of the character between date and time, which the first octets tell. -/
def separatorPlace? (bs : List Octet) : Option Nat :=
  let size := bs.length
  let octet (i : Nat) := bs.getD i 0
  if size = 7 then some 7
  else if octet 4 = dash then
    if octet 5 = weekMark then
      if size < 8 then none
      else if 8 < size && octet 8 = dash then
        if size = 9 then none
        else if 10 < size && isDigit (octet 10) then some 8
        else some 10
      else some 8
    else some 10
  else if octet 4 = weekMark then
    let place := 7 + ((bs.drop 7).takeWhile isDigit).length
    if place < 9 then some place
    else if place % 2 = 0 then some 7
    else some 8
  else some 8

/-- The number of octets of the character that begins with a given one. -/
def charSize (b : Octet) : Nat :=
  if b < 128 then 1
  else if b / 16 = 14 then 3
  else if b / 16 = 15 then 4
  else 2

/-- Date, time and offset of a text in octets. -/
def octets? (bs : List Octet) : Option (Date × ClockTime × Option Int) := do
  if bs.length < 7 then none
  else
    let place ← separatorPlace? bs
    let date ← date? (bs.take place)
    let rest := bs.drop place
    let (time, offset) ← match rest with
      | [] => some (ClockTime.midnight, none)
      | b :: _ => zonedClock? (rest.drop (charSize b))
    if date.valid && time.valid then some (date, time, offset) else none

/-- An instant in microseconds since the beginning of 1970. Without an offset the text was taken as
universal time, and `zoned` is false. -/
structure Instant where
  micros : Int
  zoned : Bool
  deriving DecidableEq, Repr

def read? (s : String) : Option Instant := do
  let (date, time, offset) ← octets? ((Text.encodeUtf8 s.toList).map UInt8.toNat)
  return ⟨epochMicros date time - offset.getD 0, offset.isSome⟩

/-- The seconds since the beginning of 1970 as a floating point number. -/
def seconds? (s : String) : Option Binary64 :=
  (read? s).map fun t ↦ Binary64.ofRat (mkRat t.micros 1000000)

end Admission.Timestamp
