import Admission.Text.Encoding
import Admission.Value

/-!
Messages with arguments. A percent sign begins a place for an argument: an optional name in
parentheses, flags, a width, a precision and a letter that tells how the argument is written; two
percent signs stand for one. All arguments have to be used, and one argument that is a map is used
by names.
-/

set_option autoImplicit false
set_option relaxedAutoImplicit false

namespace Admission.Journal

structure Flags where
  left : Bool := false
  plus : Bool := false
  blank : Bool := false
  alternate : Bool := false
  zero : Bool := false

/-- A width or a precision: given as a number, or taken from the arguments. -/
inductive Size
  | given (n : Nat)
  | argument

structure Place where
  name : Option (List Char)
  flags : Flags
  width : Option Size
  precision : Option Size
  letter : Char

/-- Arguments by position, or one map by names; none of a map's entries has to be used. -/
inductive Arguments
  | row (rest : List Value)
  | fields (entries : Fields) (unused : Bool)

def cutFlags (flags : Flags) : List Char → Flags × List Char
  | '-' :: rest => cutFlags { flags with left := true } rest
  | '+' :: rest => cutFlags { flags with plus := true } rest
  | ' ' :: rest => cutFlags { flags with blank := true } rest
  | '#' :: rest => cutFlags { flags with alternate := true } rest
  | '0' :: rest => cutFlags { flags with zero := true } rest
  | cs => (flags, cs)

def cutSize (cs : List Char) : Option Size × List Char :=
  match cs with
  | '*' :: rest => (some .argument, rest)
  | cs =>
    let (digits, rest) := cs.span Numeral.isDigit
    if digits.isEmpty then (none, cs) else (some (.given (Numeral.ofDigits digits)), rest)

/-- A name in parentheses, which may nest. -/
def cutName (depth : Nat) : List Char → Option (List Char × List Char)
  | [] => none
  | c :: rest =>
    if c = ')' then
      match depth with
      | 0 => some ([], rest)
      | depth + 1 => (cutName depth rest).map fun r ↦ (c :: r.1, r.2)
    else (cutName (if c = '(' then depth + 1 else depth) rest).map fun r ↦ (c :: r.1, r.2)

/-- The place behind a percent sign, and what follows it. -/
def cutPlace? (cs : List Char) : Option (Place × List Char) := do
  let (name, cs) ← match cs with
    | '(' :: rest => (cutName 0 rest).map fun r ↦ (some r.1, r.2)
    | cs => some (none, cs)
  let (flags, cs) := cutFlags {} cs
  let (width, cs) := cutSize cs
  let (precision, cs) := match cs with
    | '.' :: rest =>
      let (size, rest) := cutSize rest
      (some (size.getD (.given 0)), rest)
    | cs => (none, cs)
  let cs := match cs with
    | c :: rest => if c = 'h' || c = 'l' || c = 'L' then rest else cs
    | [] => cs
  match cs with
  | letter :: rest => some (⟨name, flags, width, precision, letter⟩, rest)
  | [] => none

/-- The next argument, and the arguments after it. -/
def Arguments.next? : Arguments → Option (Value × Arguments)
  | .row (v :: rest) => some (v, .row rest)
  | .row [] => none
  | .fields entries true => some (.map entries, .fields entries false)
  | .fields _ false => none

/-- No width and no precision may be larger. -/
def sizeLimit : Nat := 0x7FFFFFFF

def withinLimit (n : Int) : Option Int :=
  if n.natAbs ≤ sizeLimit then some n else none

/-- A size and the sign of one that is taken from the arguments. -/
def Arguments.size? (args : Arguments) : Option Size → Option (Option Int × Arguments)
  | none => some (none, args)
  | some (.given n) => (withinLimit n).map fun n ↦ (some n, args)
  | some .argument =>
    match args.next? with
    | some (.int n, args) => (withinLimit n).map fun n ↦ (some n, args)
    | some (.bool b, args) => some (some (if b then 1 else 0), args)
    | _ => none

/-- The digits of a quotient with a fixed number of places. -/
def fixedDigits (q : Rat) (places : Nat) : List Char :=
  let n := Binary64.roundHalfEven (q.num.natAbs * Nat.pow 10 places) q.den
  let digits := Nat.toDigits 10 n
  let padded := List.replicate (places + 1 - digits.length) '0' ++ digits
  let whole := padded.take (padded.length - places)
  if places = 0 then whole else whole ++ '.' :: padded.drop (padded.length - places)

/-- Significant digits of a positive rational, rounded, and the exponent of the leading one. -/
def significant (q : Rat) (count : Nat) : List Char × Int :=
  if q = 0 then (List.replicate count '0', 0)
  else
    let place := Binary64.leadingPlace q
    let scaled := q / Binary64.tenPow (place - (count - 1 : Nat))
    let digits := Nat.toDigits 10 (Binary64.roundHalfEven scaled.num.natAbs scaled.den)
    if digits.length > count then (digits.take count, place + 1) else (digits, place)

def withPoint (digits : List Char) : List Char :=
  match digits with
  | d :: e :: rest => d :: '.' :: e :: rest
  | short => short

def exponentText (e : Int) : List Char :=
  let size := Nat.toDigits 10 e.natAbs
  'e' :: (if e < 0 then '-' else '+') :: (if size.length < 2 then '0' :: size else size)

def dropZeros (cs : List Char) : List Char :=
  if cs.contains '.' then
    let kept := (cs.reverse.dropWhile (· == '0')).reverse
    if kept.getLast? = some '.' then kept.dropLast else kept
  else cs

/-- In the alternate form a number always has a point. -/
def ensurePoint (alternate : Bool) (cs : List Char) : List Char :=
  if alternate && !cs.contains '.' then cs ++ ['.'] else cs

/-- The magnitude of a finite number in one of the three notations. -/
def floatDigits (kind : Char) (alternate : Bool) (precision : Nat) (q : Rat) : List Char :=
  if kind = 'f' then ensurePoint alternate (fixedDigits q precision)
  else if kind = 'e' then
    let (digits, e) := significant q (precision + 1)
    ensurePoint alternate (withPoint digits) ++ exponentText e
  else
    let count := if precision = 0 then 1 else precision
    let (digits, e) := significant q count
    let tidy := fun cs ↦ if alternate then ensurePoint true cs else dropZeros cs
    if -4 ≤ e && e < count then tidy (fixedDigits q (count - 1 - e).toNat)
    else tidy (withPoint digits) ++ exponentText e

/-- A text with its sign, filled up to a width; zeros go behind the sign. -/
def pad (flags : Flags) (width : Nat) (zero : Bool) (sign body : List Char) : List Char :=
  let missing := width - (sign.length + body.length)
  if flags.left then sign ++ body ++ List.replicate missing ' '
  else if zero then sign ++ List.replicate missing '0' ++ body
  else List.replicate missing ' ' ++ sign ++ body

def signOf (flags : Flags) (negative : Bool) : List Char :=
  if negative then ['-'] else if flags.plus then ['+'] else if flags.blank then [' '] else []

def upperAscii (cs : List Char) : List Char :=
  cs.map fun c ↦ if 'a' ≤ c && c ≤ 'z' then Char.ofNat (c.toNat - 32) else c

/-- The integer that an argument stands for in decimal notation. -/
def decimal? : Value → Option Int
  | .int n => some n
  | .bool b => some (if b then 1 else 0)
  | .float x => x.truncate?
  | _ => none

def whole? : Value → Option Int
  | .int n => some n
  | .bool b => some (if b then 1 else 0)
  | _ => none

def float? : Value → Option Binary64
  | .float x => some x
  | v => (whole? v).bind fun n ↦
    let x := Binary64.ofInt n
    if x.isFinite then some x else none

/-- The mark in front of a number that is not decimal. -/
def baseMark (letter : Char) : List Char :=
  if letter = 'o' then ['0', 'o'] else ['0', letter]

def writeInt (p : Place) (width precision : Nat) (n : Int) (base : Nat) : List Char :=
  let digits := Nat.toDigits base n.natAbs
  let digits := if p.letter = 'X' then upperAscii digits else digits
  let digits := List.replicate (precision - digits.length) '0' ++ digits
  let mark := if p.flags.alternate && base != 10 then baseMark p.letter else []
  pad p.flags width p.flags.zero (signOf p.flags (n < 0) ++ mark) digits

def writeFloat (p : Place) (width : Nat) (precision : Option Nat) (x : Binary64) : List Char :=
  let kind := Numeral.foldAscii p.letter
  let isUpper := p.letter != kind
  let sign := signOf p.flags x.isNegative
  let body := match x.toRat? with
    | some q => floatDigits kind p.flags.alternate (precision.getD 6) (if q < 0 then -q else q)
    | none => if x = .nan then "nan".toList else "inf".toList
  pad p.flags width p.flags.zero sign (if isUpper then upperAscii body else body)

def writeText (p : Place) (width : Nat) (precision : Option Nat) (s : String) : List Char :=
  let cs := match precision with
    | some n => s.toList.take n
    | none => s.toList
  pad p.flags width false [] cs

/-- An argument as its place asks for it. -/
def write? (p : Place) (width : Nat) (precision : Option Nat) (v : Value) : Option (List Char) :=
  match p.letter with
  | 's' => v.text?.map (writeText p width precision)
  | 'r' => v.code?.map (writeText p width precision)
  | 'a' => v.code?.map fun s ↦ writeText p width precision (String.ofList (s.toList.flatMap fun c ↦
      if c.toNat < 128 then [c] else Text.escapeCode c))
  | 'c' =>
    match v with
    | .str s => if s.length = 1 then some (writeText p width none s) else none
    | v => do
      let n ← whole? v
      if n < 0 then none
      else (Text.charOf? n.toNat).map fun c ↦ writeText p width none c.toString
  | letter =>
    if letter = 'd' || letter = 'i' || letter = 'u' then do
      let n ← decimal? v
      let _ ← Numeral.intText? n
      return writeInt p width (precision.getD 0) n 10
    else if letter = 'x' || letter = 'X' then
      (whole? v).map fun n ↦ writeInt p width (precision.getD 0) n 16
    else if letter = 'o' then (whole? v).map fun n ↦ writeInt p width (precision.getD 0) n 8
    else if "eEfFgG".toList.contains letter then (float? v).map (writeFloat p width precision)
    else none

/-- Fills one place. -/
def fillPlace? (p : Place) (args : Arguments) : Option (List Char × Arguments) := do
  let source ← match p.name with
    | none => some args
    | some name =>
      match args with
      | .fields entries _ =>
        (entries.get? (String.ofList name)).map fun v ↦ Arguments.row [v]
      | .row _ => none
  let (width, source) ← source.size? p.width
  let (precision, source) ← source.size? p.precision
  let p := match width with
    | some n => if n < 0 then { p with flags := { p.flags with left := true } } else p
    | none => p
  let (v, source) ← source.next?
  let text ← write? p (width.getD 0).natAbs (precision.map Int.toNat) v
  return (text, if p.name.isSome then args else source)

/-- Fills the places of a message, of which the fuel exceeds the length. -/
def fillWithin? : Nat → Arguments → List Char → Option (List Char × Arguments)
  | 0, args, _ => some ([], args)
  | fuel + 1, args, cs =>
    match cs with
    | [] => some ([], args)
    | '%' :: '%' :: rest => do
      let (more, args) ← fillWithin? fuel args rest
      return ('%' :: more, args)
    | '%' :: rest => do
      let (place, rest) ← cutPlace? rest
      let (text, args) ← fillPlace? place args
      let (more, args) ← fillWithin? fuel args rest
      return (text ++ more, args)
    | c :: rest => do
      let (more, args) ← fillWithin? fuel args rest
      return (c :: more, args)

/-- Nothing is left over of a row. -/
def Arguments.isUsed : Arguments → Bool
  | .row rest => rest.isEmpty
  | .fields _ _ => true

/-- The text of a message with arguments; without arguments it stays as it is. -/
def interpolate? (message : String) (args : List Value) : Option String :=
  match args with
  | [] => some message
  | args =>
    let source := match args with
      | [.map (e :: rest)] => Arguments.fields (e :: rest) true
      | args => .row args
    match fillWithin? (message.length + 1) source message.toList with
    | some (cs, rest) => if rest.isUsed then some (String.ofList cs) else none
    | none => none

end Admission.Journal
