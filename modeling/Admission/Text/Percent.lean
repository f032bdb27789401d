import Admission.Text.Encoding

/-!
Percent encoding: a character outside a given class is written as its octets in UTF-8, each as a
percent sign and two hexadecimal digits.
-/

set_option autoImplicit false
set_option relaxedAutoImplicit false

namespace Admission.Text

/-- A hexadecimal digit in upper case. -/
def upperHex (n : Nat) : Char :=
  if n < 10 then Char.ofNat (48 + n) else Char.ofNat (55 + n)

def percentOctet (b : UInt8) : List Char :=
  ['%', upperHex (b.toNat / 16), upperHex (b.toNat % 16)]

def percentChar (keeps : Char → Bool) (c : Char) : List Char :=
  if keeps c then [c] else (String.utf8EncodeChar c).flatMap percentOctet

def percentEncode (keeps : Char → Bool) (cs : List Char) : List Char :=
  cs.flatMap (percentChar keeps)

def isAsciiAlnum (c : Char) : Bool :=
  ('0' ≤ c && c ≤ '9') || ('a' ≤ c && c ≤ 'z') || ('A' ≤ c && c ≤ 'Z')

/-- The characters that stand for themselves everywhere in an address. -/
def isUnreserved (c : Char) : Bool :=
  isAsciiAlnum c || c == '-' || c == '.' || c == '_' || c == '~'

def hexValue? (c : Char) : Option Nat :=
  if '0' ≤ c && c ≤ '9' then some (c.toNat - 48)
  else if 'a' ≤ c && c ≤ 'f' then some (c.toNat - 87)
  else if 'A' ≤ c && c ≤ 'F' then some (c.toNat - 55)
  else none

/-- The octet that two hexadecimal digits denote. -/
def hexOctet? (a b : Char) : Option UInt8 := do
  return UInt8.ofNat ((← hexValue? a) * 16 + (← hexValue? b))

/-- The octets of an encoded text. A percent sign without two digits stands for itself. -/
def percentOctets : List Char → List UInt8
  | [] => []
  | '%' :: a :: b :: rest =>
    match hexOctet? a b with
    | some octet => octet :: percentOctets rest
    | none => String.utf8EncodeChar '%' ++ percentOctets (a :: b :: rest)
  | c :: rest => String.utf8EncodeChar c ++ percentOctets rest

/-- The text of an encoded text, octets that are no UTF-8 being replaced. -/
def percentDecode (cs : List Char) : List Char :=
  decodeUtf8Lossy (percentOctets cs)

end Admission.Text
