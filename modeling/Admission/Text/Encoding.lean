/-!
Octets and text: UTF-8, UTF-16 and UTF-32 in both byte orders, ASCII and Latin-1. A decoder refuses
what is not well formed. What it makes of a code point is up to whoever uses it: the surrogates are
no characters, but some readers let them pass.
-/

set_option autoImplicit false
set_option relaxedAutoImplicit false

namespace Admission.Text

def charOf? (n : Nat) : Option Char :=
  if h : n.isValidChar then some (Char.ofNatAux n h) else none

/-- The character of a code point; a surrogate counts as the replacement character. -/
def anyCharOf? (n : Nat) : Option Char :=
  if n < 0x110000 then some ((charOf? n).getD '\uFFFD') else none

def encodeUtf8 (cs : List Char) : List UInt8 :=
  cs.flatMap String.utf8EncodeChar

/-- The six payload bits of a continuation octet. -/
def continuation? (b : UInt8) : Option Nat :=
  if b.toNat / 64 = 2 then some (b.toNat % 64) else none

section Utf8

variable (char? : Nat → Option Char)

/-- A code point spread over several octets must not fit into fewer. -/
def utf8Char? (least n : Nat) : Option Char :=
  if least ≤ n then char? n else none

/-- Decodes UTF-8 by the characters of its code points. -/
def decodeUtf8By : List UInt8 → Option (List Char)
  | [] => some []
  | a :: rest =>
    let n := a.toNat
    if n < 0x80 then do
      let c ← char? n
      return c :: (← decodeUtf8By rest)
    else if n < 0xC0 then none
    else if n < 0xE0 then
      match rest with
      | b :: rest => do
        let c ← utf8Char? char? 0x80 ((n % 32) * 64 + (← continuation? b))
        return c :: (← decodeUtf8By rest)
      | _ => none
    else if n < 0xF0 then
      match rest with
      | b :: b' :: rest => do
        let c ← utf8Char? char? 0x800
          (((n % 16) * 64 + (← continuation? b)) * 64 + (← continuation? b'))
        return c :: (← decodeUtf8By rest)
      | _ => none
    else if n < 0xF8 then
      match rest with
      | b :: b' :: b'' :: rest => do
        let c ← utf8Char? char? 0x10000
          ((((n % 8) * 64 + (← continuation? b)) * 64 + (← continuation? b')) * 64 +
            (← continuation? b''))
        return c :: (← decodeUtf8By rest)
      | _ => none
    else none

end Utf8

def decodeUtf8 (octets : List UInt8) : Option (List Char) :=
  decodeUtf8By charOf? octets

/-- The bounds of the second octet of a character, by its first; the first octet also tells how many
octets follow. No bounds are given for an octet that begins no character. -/
def utf8Lead? (n : Nat) : Option (Nat × Nat × Nat) :=
  if n < 0xC2 then none
  else if n < 0xE0 then some (1, 0x80, 0xBF)
  else if n < 0xF0 then
    some (2, if n = 0xE0 then 0xA0 else 0x80, if n = 0xED then 0x9F else 0xBF)
  else if n < 0xF5 then
    some (3, if n = 0xF0 then 0x90 else 0x80, if n = 0xF4 then 0x8F else 0xBF)
  else none

/-- How many octets at the beginning can belong to one character, at most the given number; only the
first of them has bounds of its own. -/
def continuationRun (low high : Nat) : Nat → List UInt8 → Nat
  | 0, _ => 0
  | _ + 1, [] => 0
  | more + 1, b :: rest =>
    if low ≤ b.toNat && b.toNat ≤ high then continuationRun 0x80 0xBF more rest + 1 else 0

/-- Decodes UTF-8; each longest beginning of a character that is not completed, and each octet that
begins none, is read as the replacement character. -/
def decodeUtf8Lossy (octets : List UInt8) : List Char :=
  match octets with
  | [] => []
  | a :: rest =>
    if a.toNat < 0x80 then Char.ofNat a.toNat :: decodeUtf8Lossy rest
    else
      match utf8Lead? a.toNat with
      | none => '\uFFFD' :: decodeUtf8Lossy rest
      | some (more, low, high) =>
        let run := continuationRun low high more rest
        let c := if run < more then '\uFFFD'
          else ((decodeUtf8 (a :: rest.take run)).bind List.head?).getD '\uFFFD'
        c :: decodeUtf8Lossy (rest.drop run)
termination_by octets.length
decreasing_by all_goals (simp only [List.length_cons, List.length_drop]; omega)

inductive ByteOrder
  | little
  | big
  deriving DecidableEq, Repr

/-- The number that a group of octets stands for. -/
def ByteOrder.toNat (order : ByteOrder) (octets : List UInt8) : Nat :=
  let bigEndian := match order with
    | .big => octets
    | .little => octets.reverse
  bigEndian.foldl (fun n b ↦ n * 256 + b.toNat) 0

def units16 (order : ByteOrder) : List UInt8 → Option (List Nat)
  | [] => some []
  | a :: b :: rest => (units16 order rest).map (order.toNat [a, b] :: ·)
  | _ => none

def units32 (order : ByteOrder) : List UInt8 → Option (List Nat)
  | [] => some []
  | a :: b :: c :: d :: rest => (units32 order rest).map (order.toNat [a, b, c, d] :: ·)
  | _ => none

def isHighSurrogate (n : Nat) : Bool :=
  0xD800 ≤ n && n < 0xDC00

def isLowSurrogate (n : Nat) : Bool :=
  0xDC00 ≤ n && n < 0xE000

/-- The code point of a surrogate pair. -/
def surrogatePair (high low : Nat) : Nat :=
  0x10000 + (high - 0xD800) * 0x400 + (low - 0xDC00)

/-- The characters of units of which two may be the halves of a surrogate pair. -/
def charsOfUnits16 (char? : Nat → Option Char) : List Nat → Option (List Char)
  | [] => some []
  | [n] => do return [← char? n]
  | n :: m :: rest =>
    if isHighSurrogate n && isLowSurrogate m then do
      let c ← char? (surrogatePair n m)
      return c :: (← charsOfUnits16 char? rest)
    else do
      let c ← char? n
      return c :: (← charsOfUnits16 char? (m :: rest))

def decodeUtf16 (char? : Nat → Option Char) (order : ByteOrder) (octets : List UInt8) :
    Option (List Char) :=
  (units16 order octets).bind (charsOfUnits16 char?)

def decodeUtf32 (char? : Nat → Option Char) (order : ByteOrder) (octets : List UInt8) :
    Option (List Char) :=
  (units32 order octets).bind fun units ↦ units.mapM char?

def decodeAscii (octets : List UInt8) : Option (List Char) :=
  octets.mapM fun b ↦ if b.toNat < 128 then some (Char.ofNat b.toNat) else none

def decodeLatin1 (octets : List UInt8) : List Char :=
  octets.map fun b ↦ Char.ofNat b.toNat

end Admission.Text
