import Admission.Number.Binary64
import Admission.Text.Blank

/-!
Numerals: texts that denote numbers. Digits of any script count where operators type numbers, with
underscores between digits; a numeral of more than 4300 digits denotes no integer.
-/

set_option autoImplicit false
set_option relaxedAutoImplicit false

namespace Admission.Numeral

/-- The most digits that an integer may have in a text, read or written. -/
def digitLimit : Nat := 4300

/-- The zeros of the decimal digits outside ASCII; nine more digits follow each. -/
def foreignZeros : List Nat := [
  0x660, 0x6F0, 0x7C0, 0x966, 0x9E6, 0xA66, 0xAE6, 0xB66, 0xBE6, 0xC66, 0xCE6, 0xD66, 0xDE6, 0xE50,
  0xED0, 0xF20, 0x1040, 0x1090, 0x17E0, 0x1810, 0x1946, 0x19D0, 0x1A80, 0x1A90, 0x1B50, 0x1BB0,
  0x1C40, 0x1C50, 0xA620, 0xA8D0, 0xA900, 0xA9D0, 0xA9F0, 0xAA50, 0xABF0, 0xFF10, 0x104A0, 0x10D30,
  0x11066, 0x110F0, 0x11136, 0x111D0, 0x112F0, 0x11450, 0x114D0, 0x11650, 0x116C0, 0x11730, 0x118E0,
  0x11950, 0x11C50, 0x11D50, 0x11DA0, 0x16A60, 0x16AC0, 0x16B50, 0x1D7CE, 0x1D7D8, 0x1D7E2, 0x1D7EC,
  0x1D7F6, 0x1E140, 0x1E2F0, 0x1E950, 0x1FBF0]

def isDigit (c : Char) : Bool :=
  '0' ≤ c && c ≤ '9'

def digitValue (c : Char) : Nat :=
  c.toNat - 48

/-- The number that a row of ASCII digits denotes. -/
def ofDigits (ds : List Char) : Nat :=
  ds.foldl (fun n c ↦ n * 10 + digitValue c) 0

/-- A digit of any script as the ASCII digit of its value; other characters stay. -/
def asciiDigit (c : Char) : Char :=
  if c.toNat < 128 then c
  else match foreignZeros.find? fun z ↦ z ≤ c.toNat && c.toNat < z + 10 with
    | some z => Char.ofNat (48 + (c.toNat - z))
    | none => c

/-- Removes underscores, each of which must stand between two digits. `afterDigit` tells whether a
digit comes before the text. -/
def withoutUnderscores? (afterDigit : Bool) : List Char → Option (List Char)
  | [] => some []
  | '_' :: c :: rest =>
    if afterDigit && isDigit c then (withoutUnderscores? true rest).map (c :: ·) else none
  | ['_'] => none
  | c :: rest => (withoutUnderscores? (isDigit c) rest).map (c :: ·)

/-- The plain form of a typed numeral: trimmed, in ASCII digits, without underscores. -/
def plain? (s : String) : Option (List Char) :=
  withoutUnderscores? false ((Text.trimChars s.toList).map asciiDigit)

/-- Splits a sign off; true for a minus. -/
def signed : List Char → Bool × List Char
  | '-' :: rest => (true, rest)
  | '+' :: rest => (false, rest)
  | cs => (false, cs)

def applySign (negative : Bool) (n : Nat) : Int :=
  if negative then -(n : Int) else n

/-- The integer that a typed numeral denotes. -/
def int? (s : String) : Option Int := do
  let (negative, digits) := signed (← plain? s)
  if digits.isEmpty || !digits.all isDigit || digitLimit < digits.length then none
  else some (applySign negative (ofDigits digits))

/-- The exponent part of a decimal numeral, which may be missing. -/
def exponent? : List Char → Option Int
  | [] => some 0
  | e :: rest =>
    if e = 'e' || e = 'E' then
      let (negative, digits) := signed rest
      if digits.isEmpty || !digits.all isDigit then none
      else some (applySign negative (ofDigits digits))
    else none

/-- The number of an unsigned decimal numeral: digits around an optional point, one at least, and an
optional exponent. -/
def unsignedDecimal? (negative : Bool) (cs : List Char) : Option Binary64 :=
  let (whole, rest) := cs.span isDigit
  let (fraction, rest) := match rest with
    | '.' :: rest => rest.span isDigit
    | _ => ([], rest)
  if whole.isEmpty && fraction.isEmpty then none
  else (exponent? rest).map fun e ↦
    Binary64.ofDecimal negative (ofDigits (whole ++ fraction)) (e - fraction.length)

/-- The lower-case form of an ASCII letter. -/
def foldAscii (c : Char) : Char :=
  if 'A' ≤ c && c ≤ 'Z' then Char.ofNat (c.toNat + 32) else c

/-- The floating point number that a typed numeral denotes; infinities and the undefined number have
names. -/
def float? (s : String) : Option Binary64 := do
  let (negative, body) := signed (← plain? s)
  match String.ofList (body.map foldAscii) with
  | "inf" => some (.infinite negative)
  | "infinity" => some (.infinite negative)
  | "nan" => some .nan
  | _ => unsignedDecimal? negative body

/-- An integer has a text only within the digit limit. -/
def intText? (n : Int) : Option String :=
  let text := toString n.natAbs
  if digitLimit < text.length then none
  else some (if n < 0 then "-" ++ text else text)

end Admission.Numeral
