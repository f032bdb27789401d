import Admission.Number.Binary64

/-!
The shortest decimal text of a binary floating point number: the fewest significant digits that read
back as the number, and of those the nearest to it. Exponents from -4 to 15 are written in place,
all others behind an `e` with a sign and at least two digits.
-/

set_option autoImplicit false
set_option relaxedAutoImplicit false

namespace Admission.Binary64

/-- The power of ten as a rational. -/
def tenPow (e : Int) : Rat :=
  if 0 ≤ e then mkRat (Int.pow 10 e.toNat) 1 else mkRat 1 (Nat.pow 10 (-e).toNat)

/-- The exponent of the leading decimal digit of a positive rational. -/
def leadingPlace (q : Rat) : Int :=
  let log : Int := (q.num.natAbs.log2 : Int) - q.den.log2
  let low := Int.fdiv (log * 30103) 100000 - 1
  if tenPow (low + 2) ≤ q then low + 2
  else if tenPow (low + 1) ≤ q then low + 1
  else low

/-- The rationals that round to a given number lie between two bounds, which belong to them or
not. -/
structure Neighbourhood where
  low : Rat
  high : Rat
  closed : Bool

def Neighbourhood.holds (b : Neighbourhood) (q : Rat) : Bool :=
  if b.closed then b.low ≤ q && q ≤ b.high else b.low < q && q < b.high

/-- The neighbourhood of a positive number that is representable. -/
def neighbourhood (q : Rat) : Neighbourhood :=
  let e := lastPlace q.num.natAbs q.den
  let m := (q / twoPow e).floor
  let half := twoPow (e - 1)
  let below := if m = 0x10000000000000 && -1074 < e then half / 2 else half
  { low := q - below, high := q + half, closed := m % 2 == 0 }

/-- The nearest multiple of `10 ^ place` in the neighbourhood, if there is one. -/
def digitsAt? (q : Rat) (around : Neighbourhood) (place : Int) : Option Nat :=
  let unit := tenPow place
  let below := (q / unit).floor.toNat
  let above := below + 1
  let lowHit := around.holds (below * unit)
  let highHit := around.holds (above * unit)
  if lowHit && highHit then
    let gapBelow := q - below * unit
    let gapAbove := above * unit - q
    some (if gapBelow < gapAbove then below
      else if gapAbove < gapBelow then above
      else below + below % 2)
  else if lowHit then some below
  else if highHit then some above
  else none

/-- Digits and place of a number, tried with one more digit at a time. -/
def shortestFrom (q : Rat) (around : Neighbourhood) (place : Int) : Nat → Nat × Int
  | 0 => ((q / tenPow place).floor.toNat, place)
  | more + 1 =>
    match digitsAt? q around place with
    | some digits => (digits, place)
    | none => shortestFrom q around (place - 1) more

/-- The shortest digits of a positive number, and the exponent of the last of them. -/
def shortest (q : Rat) : Nat × Int :=
  shortestFrom q (neighbourhood q) (leadingPlace q) 17

/-- Decimal digits with the exponent of the leading one, laid out as text. -/
def layout (digits : List Char) (leading : Int) : List Char :=
  if -4 ≤ leading && leading < 16 then
    if leading < 0 then
      '0' :: '.' :: (List.replicate (-leading - 1).toNat '0' ++ digits)
    else
      let whole := leading.toNat + 1
      let padded := digits ++ List.replicate (whole - digits.length) '0'
      let fraction := padded.drop whole
      padded.take whole ++ '.' :: (if fraction.isEmpty then ['0'] else fraction)
  else
    let mantissa := match digits with
      | d :: e :: rest => d :: '.' :: e :: rest
      | short => short
    let size := Nat.toDigits 10 leading.natAbs
    let padded := if size.length < 2 then '0' :: size else size
    mantissa ++ 'e' :: (if leading < 0 then '-' else '+') :: padded

/-- The text of a positive number. -/
def positiveText (q : Rat) : List Char :=
  let (number, place) := shortest q
  let digits := Nat.toDigits 10 number
  let kept := (digits.reverse.dropWhile (· == '0')).reverse
  layout kept (place + digits.length - 1)

def textChars : Binary64 → List Char
  | .nan => ['n', 'a', 'n']
  | .infinite negative => (if negative then ['-'] else []) ++ ['i', 'n', 'f']
  | .negativeZero => ['-', '0', '.', '0']
  | .finite q =>
    if q = 0 then ['0', '.', '0']
    else if q < 0 then '-' :: positiveText (-q)
    else positiveText q

def text (x : Binary64) : String :=
  String.ofList x.textChars

end Admission.Binary64
