/-!
Binary floating point numbers of 64 bits, by value: a finite number is the rational that it denotes,
and zero keeps its sign. Every operation is the exact one followed by one rounding to the nearest
representable number, a tie going to the even neighbour.
-/

set_option autoImplicit false
set_option relaxedAutoImplicit false

namespace Admission

inductive Binary64
  | finite (value : Rat)
  | negativeZero
  | infinite (negative : Bool)
  | nan
  deriving DecidableEq

namespace Binary64

def zero : Binary64 := .finite 0

def signedZero (negative : Bool) : Binary64 :=
  if negative then .negativeZero else zero

instance : Inhabited Binary64 := ⟨zero⟩

/-- The quotient rounded to the nearest natural number, a half to the even one. -/
def roundHalfEven (n d : Nat) : Nat :=
  let q := n / d
  let r := n % d
  if 2 * r < d then q
  else if d < 2 * r then q + 1
  else q + q % 2

/-- The power of two as a rational. -/
def twoPow (e : Int) : Rat :=
  if 0 ≤ e then mkRat (Int.pow 2 e.toNat) 1 else mkRat 1 (Nat.pow 2 (-e).toNat)

/-- The quotient `n / d` divided by a power of two, as numerator and denominator. -/
def scaleDown (n d : Nat) (e : Int) : Nat × Nat :=
  if 0 ≤ e then (n, d * Nat.pow 2 e.toNat) else (n * Nat.pow 2 (-e).toNat, d)

/-- The exponent of the last binary place kept for a positive quotient: 53 places in all, and none
below the smallest subnormal number. -/
def lastPlace (n d : Nat) : Int :=
  let e : Int := (n.log2 : Int) - d.log2 - 53
  let (a, b) := scaleDown n d e
  let place := if 0x20000000000000 * b ≤ a then e + 1 else e
  if place < -1074 then -1074 else place

/-- The number nearest to `n / d`, with the given sign. -/
def nearest (negative : Bool) (n d : Nat) : Binary64 :=
  if n = 0 then signedZero negative
  else
    let e := lastPlace n d
    let (a, b) := scaleDown n d e
    let m := roundHalfEven a b
    if m = 0 then signedZero negative
    else
      let value : Rat := (m : Rat) * twoPow e
      if mkRat (Int.pow 2 1024) 1 ≤ value then .infinite negative
      else .finite (if negative then -value else value)

def ofRat (q : Rat) : Binary64 :=
  nearest (q < 0) q.num.natAbs q.den

def ofInt (n : Int) : Binary64 :=
  nearest (n < 0) n.natAbs 1

/-- The rational that a number denotes; infinities and the undefined number denote none. -/
def toRat? : Binary64 → Option Rat
  | .finite q => some q
  | .negativeZero => some 0
  | _ => none

def isNegative : Binary64 → Bool
  | .finite q => q < 0
  | .negativeZero => true
  | .infinite negative => negative
  | .nan => false

def isFinite (x : Binary64) : Bool :=
  x.toRat?.isSome

/-- The order of the numbers; nothing compares with the undefined number. -/
def lt (x y : Binary64) : Bool :=
  match x, y with
  | .nan, _ => false
  | _, .nan => false
  | .infinite a, .infinite b => a && !b
  | .infinite a, _ => a
  | _, .infinite b => !b
  | x, y => x.toRat?.getD 0 < y.toRat?.getD 0

def le (x y : Binary64) : Bool :=
  match x, y with
  | .nan, _ => false
  | _, .nan => false
  | x, y => !lt y x

def add (x y : Binary64) : Binary64 :=
  match x, y with
  | .nan, _ => .nan
  | _, .nan => .nan
  | .infinite a, .infinite b => if a = b then .infinite a else .nan
  | .infinite a, _ => .infinite a
  | _, .infinite b => .infinite b
  | .negativeZero, .negativeZero => .negativeZero
  | x, y => ofRat (x.toRat?.getD 0 + y.toRat?.getD 0)

def mul (x y : Binary64) : Binary64 :=
  let negative := x.isNegative != y.isNegative
  match x, y with
  | .nan, _ => .nan
  | _, .nan => .nan
  | .infinite _, y => if y.toRat? = some 0 then .nan else .infinite negative
  | x, .infinite _ => if x.toRat? = some 0 then .nan else .infinite negative
  | x, y =>
    let q := x.toRat?.getD 0 * y.toRat?.getD 0
    nearest negative q.num.natAbs q.den

/-- The second number if it is less than the first, and the first otherwise. -/
def min (x y : Binary64) : Binary64 :=
  if lt y x then y else x

/-- The second number if it is greater than the first, and the first otherwise. -/
def max (x y : Binary64) : Binary64 :=
  if lt x y then y else x

/-- Two to an integral power; nothing below the smallest subnormal number is left. -/
def powTwo (e : Int) : Binary64 :=
  if 1024 ≤ e then .infinite false
  else if e < -1074 then zero
  else .finite (twoPow e)

/-- The integral part of a finite number, rounded toward zero. -/
def truncate? (x : Binary64) : Option Int :=
  x.toRat?.map fun q ↦ q.num.tdiv q.den

/-- The number nearest to `digits * 10 ^ exponent`. Exponents far outside the range are settled by
their size alone. -/
def ofDecimal (negative : Bool) (digits : Nat) (exponent : Int) : Binary64 :=
  let size : Int := (digits.log2 * 30103 / 100000 : Nat) + exponent
  if digits = 0 then signedZero negative
  else if 310 < size then .infinite negative
  else if size < -330 then signedZero negative
  else if 0 ≤ exponent then nearest negative (digits * Nat.pow 10 exponent.toNat) 1
  else nearest negative digits (Nat.pow 10 (-exponent).toNat)

end Binary64

end Admission
