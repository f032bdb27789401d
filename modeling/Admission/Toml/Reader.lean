import Admission.Text.Percent
import Admission.Value

/-!
Reading a value in the notation of configuration files with sections: strings of four kinds,
integers of four bases, floating point numbers, dates and times, arrays and inline tables.
-/

set_option autoImplicit false
set_option relaxedAutoImplicit false

namespace Admission.Toml

open Admission.Numeral (isDigit digitValue)

def isSpace (c : Char) : Bool :=
  c == ' ' || c == '\t'

def isSpaceOrNewline (c : Char) : Bool :=
  isSpace c || c == '\n'

def isControl (c : Char) : Bool :=
  c.toNat < 32 || c.toNat == 127

def skipSpace (cs : List Char) : List Char :=
  cs.dropWhile isSpace

/-- Line ends of two characters count as one. -/
def unifyNewlines : List Char → List Char
  | '\r' :: '\n' :: rest => '\n' :: unifyNewlines rest
  | c :: rest => c :: unifyNewlines rest
  | [] => []

/-- What follows a comment; controls other than the tab may not stand in one. -/
def skipComment? (cs : List Char) : Option (List Char) :=
  match cs with
  | '#' :: rest =>
    let (body, rest) := rest.span (· != '\n')
    if body.any fun c ↦ isControl c && c != '\t' then none else some rest
  | cs => some cs

/-- What follows the blanks, line ends and comments between the items of an array. -/
def skipFiller? : Nat → List Char → Option (List Char)
  | 0, cs => some cs
  | fuel + 1, cs => do
    let rest ← skipComment? (cs.dropWhile isSpaceOrNewline)
    if rest.length < cs.length then skipFiller? fuel rest else some rest

/-- The code point written in a fixed number of hexadecimal digits. -/
def codePoint? (width : Nat) (cs : List Char) : Option (Char × List Char) := do
  let digits := cs.take width
  if digits.length < width then none
  else
    let n ← digits.foldlM (fun n c ↦ (Text.hexValue? c).map (n * 16 + ·)) 0
    return (← Text.charOf? n, cs.drop width)

/-- The characters that an escape stands for; at the end of a line of a long string it stands for
none, and the blanks that follow are dropped. -/
def escaped? (long : Bool) : List Char → Option (List Char × List Char)
  | 'u' :: rest => (codePoint? 4 rest).map fun r ↦ ([r.1], r.2)
  | 'U' :: rest => (codePoint? 8 rest).map fun r ↦ ([r.1], r.2)
  | 'b' :: rest => some (['\x08'], rest)
  | 't' :: rest => some (['\t'], rest)
  | 'n' :: rest => some (['\n'], rest)
  | 'f' :: rest => some (['\x0c'], rest)
  | 'r' :: rest => some (['\r'], rest)
  | '"' :: rest => some (['"'], rest)
  | '\\' :: rest => some (['\\'], rest)
  | '\n' :: rest => if long then some ([], rest.dropWhile isSpaceOrNewline) else none
  | c :: rest =>
    if long && isSpace c then
      match skipSpace rest with
      | [] => some ([], [])
      | '\n' :: rest => some ([], rest.dropWhile isSpaceOrNewline)
      | _ => none
    else none
  | [] => none

/-- The characters of a string in double quotes, and what follows it. -/
def basicBody? (long : Bool) : Nat → List Char → Option (List Char × List Char)
  | 0, _ => none
  | fuel + 1, cs =>
    match cs with
    | [] => none
    | '"' :: rest =>
      if long then
        match rest with
        | '"' :: '"' :: rest => some ([], rest)
        | _ => (basicBody? long fuel rest).map fun r ↦ ('"' :: r.1, r.2)
      else some ([], rest)
    | '\\' :: rest => do
      let (chars, rest) ← escaped? long rest
      let (body, rest) ← basicBody? long fuel rest
      return (chars ++ body, rest)
    | c :: rest =>
      if isControl c && c != '\t' && !(long && c == '\n') then none
      else (basicBody? long fuel rest).map fun r ↦ (c :: r.1, r.2)

/-- The characters of a string in single quotes, and what follows it. -/
def literalBody? (long : Bool) : List Char → Option (List Char × List Char)
  | [] => none
  | '\'' :: rest =>
    if long then
      match rest with
      | '\'' :: '\'' :: rest => some ([], rest)
      | _ => (literalBody? long rest).map fun r ↦ ('\'' :: r.1, r.2)
    else some ([], rest)
  | c :: rest =>
    if isControl c && c != '\t' && !(long && c == '\n') then none
    else (literalBody? long rest).map fun r ↦ (c :: r.1, r.2)

/-- Up to two quotes right behind the end of a long string belong to it. -/
def extraQuotes (quote : Char) (r : List Char × List Char) : List Char × List Char :=
  let extra := (r.2.take 2).takeWhile (· == quote)
  (r.1 ++ extra, r.2.drop extra.length)

def dropNewline (cs : List Char) : List Char :=
  match cs with
  | '\n' :: rest => rest
  | cs => cs

/-- A string of any kind. -/
def string? : List Char → Option (List Char × List Char)
  | '"' :: '"' :: '"' :: rest =>
    (basicBody? true (rest.length + 1) (dropNewline rest)).map (extraQuotes '"')
  | '"' :: rest => basicBody? false (rest.length + 1) rest
  | '\'' :: '\'' :: '\'' :: rest => (literalBody? true (dropNewline rest)).map (extraQuotes '\'')
  | '\'' :: rest => literalBody? false rest
  | _ => none

/-- A number of exactly two digits within bounds, and what follows it. -/
def twoDigits? (least most : Nat) : List Char → Option (Nat × List Char)
  | a :: b :: rest =>
    let n := digitValue a * 10 + digitValue b
    if isDigit a && isDigit b && least ≤ n && n ≤ most then some (n, rest) else none
  | _ => none

def expect? (c : Char) : List Char → Option (List Char)
  | d :: rest => if c = d then some rest else none
  | [] => none

/-- Digits behind a point as microseconds; six count. -/
def micros (cs : List Char) : Nat × List Char :=
  match cs with
  | '.' :: rest =>
    let (digits, tail) := rest.span isDigit
    if digits.isEmpty then (0, cs)
    else
      let kept := digits.take 6
      (Numeral.ofDigits kept * Nat.pow 10 (6 - kept.length), tail)
  | _ => (0, cs)

def clock? (cs : List Char) : Option (ClockTime × List Char) := do
  let (h, cs) ← twoDigits? 0 23 cs
  let (m, cs) ← twoDigits? 0 59 (← expect? ':' cs)
  let (s, cs) ← twoDigits? 0 59 (← expect? ':' cs)
  let (us, cs) := micros cs
  return (⟨h, m, s, us⟩, cs)

/-- An offset from universal time in microseconds. -/
def offset? : List Char → Option (Int × List Char)
  | [] => none
  | c :: rest =>
    if c = 'Z' || c = 'z' then some (0, rest)
    else if c = '+' || c = '-' then do
      let (h, rest) ← twoDigits? 0 23 rest
      let (m, rest) ← twoDigits? 0 59 (← expect? ':' rest)
      let span : Int := ((h * 60 + m) * 60000000 : Nat)
      return (if c = '-' then -span else span, rest)
    else none

/-- A date with what belongs to it, whether the day exists or not. -/
def dated? (cs : List Char) : Option (Moment × Date × List Char) := do
  let (y, rest) ← twoDigits? 0 99 cs
  let (y', rest) ← twoDigits? 0 99 rest
  let (m, rest) ← twoDigits? 1 12 (← expect? '-' rest)
  let (d, rest) ← twoDigits? 1 31 (← expect? '-' rest)
  let date : Date := ⟨y * 100 + y', m, d⟩
  let clock := match rest with
    | c :: tail => if c = 'T' || c = 't' || c = ' ' then clock? tail else none
    | [] => none
  match clock with
  | none => return (.date date, date, rest)
  | some (time, rest) =>
    match offset? rest with
    | none => return (.dateTime date time none, date, rest)
    | some (offset, rest) => return (.dateTime date time (some offset), date, rest)

/-- Digits with single underscores between them, as plain digits. -/
def digitRun (isOne : Char → Bool) : List Char → List Char × List Char
  | '_' :: c :: rest =>
    if isOne c then
      let (digits, rest) := digitRun isOne rest
      (c :: digits, rest)
    else ([], '_' :: c :: rest)
  | c :: rest =>
    if isOne c then
      let (digits, rest) := digitRun isOne rest
      (c :: digits, rest)
    else ([], c :: rest)
  | [] => ([], [])

/-- As `digitRun`, but the run begins with a digit. -/
def digits? (isOne : Char → Bool) (cs : List Char) : Option (List Char × List Char) :=
  match cs with
  | c :: _ => if isOne c then some (digitRun isOne cs) else none
  | [] => none

/-- An integer behind the letter of its base. -/
def based? (base : Nat) (cs : List Char) : Option (Value × List Char) := do
  let isOne (c : Char) := match Text.hexValue? c with
    | some v => v < base
    | none => false
  let (digits, rest) ← digits? isOne cs
  return (.int (digits.foldl (fun n c ↦ n * base + (Text.hexValue? c).getD 0) 0 : Nat), rest)

def fraction (cs : List Char) : List Char × List Char :=
  match cs with
  | '.' :: rest => (digits? isDigit rest).getD ([], cs)
  | _ => ([], cs)

def exponent (cs : List Char) : Option Int × List Char :=
  match cs with
  | c :: rest =>
    if c = 'e' || c = 'E' then
      let (negative, body) := Numeral.signed rest
      match digits? isDigit body with
      | some (digits, rest) =>
        (some (Numeral.applySign negative (Numeral.ofDigits digits)), rest)
      | none => (none, cs)
    else (none, cs)
  | [] => (none, cs)

/-- A number in decimal digits, without a leading zero. -/
def decimal (cs : List Char) : Except ReadError (Value × List Char) :=
  let (negative, body) := Numeral.signed cs
  let whole := match body with
    | '0' :: rest => some (['0'], rest)
    | body => digits? isDigit body
  match whole with
  | none => .error .malformed
  | some (whole, rest) =>
    let (fraction, rest) := fraction rest
    let (exponent, rest) := exponent rest
    if fraction.isEmpty && exponent.isNone then
      if Numeral.digitLimit < whole.length then .error (.tooManyDigits whole.length)
      else .ok (.int (Numeral.applySign negative (Numeral.ofDigits whole)), rest)
    else
      .ok (.float (Binary64.ofDecimal negative (Numeral.ofDigits (whole ++ fraction))
        (exponent.getD 0 - fraction.length)), rest)

def special? (cs : List Char) : Option (Value × List Char) :=
  let (negative, body) := Numeral.signed cs
  match body with
  | 'i' :: 'n' :: 'f' :: rest => some (.float (.infinite negative), rest)
  | 'n' :: 'a' :: 'n' :: rest => some (.float .nan, rest)
  | _ => none

/-- Numbers in any notation. -/
def number (cs : List Char) : Except ReadError (Value × List Char) :=
  let based := match cs with
    | '0' :: 'x' :: rest => based? 16 rest
    | '0' :: 'o' :: rest => based? 8 rest
    | '0' :: 'b' :: rest => based? 2 rest
    | _ => none
  match based with
  | some r => .ok r
  | none =>
    match special? cs with
    | some r => .ok r
    | none => decimal cs

/-- Everything but arrays and inline tables. -/
def scalar (cs : List Char) : Except ReadError (Value × List Char) :=
  match cs with
  | 't' :: 'r' :: 'u' :: 'e' :: rest => .ok (.bool true, rest)
  | 'f' :: 'a' :: 'l' :: 's' :: 'e' :: rest => .ok (.bool false, rest)
  | cs =>
    match dated? cs with
    | some (moment, date, rest) =>
      if date.valid then .ok (.moment moment, rest) else .error .malformed
    | none =>
      match clock? cs with
      | some (time, rest) => .ok (.moment (.time time), rest)
      | none => number cs

def isBareKey (c : Char) : Bool :=
  isDigit c || ('a' ≤ c && c ≤ 'z') || ('A' ≤ c && c ≤ 'Z') || c == '_' || c == '-'

def keyPart? (cs : List Char) : Option (String × List Char) :=
  match cs with
  | '"' :: rest => (basicBody? false (rest.length + 1) rest).map fun r ↦ (String.ofList r.1, r.2)
  | '\'' :: rest => (literalBody? false rest).map fun r ↦ (String.ofList r.1, r.2)
  | cs =>
    let (name, rest) := cs.span isBareKey
    if name.isEmpty then none else some (String.ofList name, rest)

/-- The names of a dotted key, and what follows it and its blanks. -/
def key? : Nat → List Char → Option (List String × List Char)
  | 0, _ => none
  | fuel + 1, cs => do
    let (name, rest) ← keyPart? cs
    match skipSpace rest with
    | '.' :: rest =>
      let (names, rest) ← key? fuel (skipSpace rest)
      return (name :: names, rest)
    | rest => return ([name], rest)

/-- Enters a value under a dotted key. The tables on the way are made as needed, and nothing is
overwritten. -/
def insert? (fields : Fields) (path : List String) (value : Value) : Option Fields :=
  match path with
  | [] => none
  | [name] => if (fields.get? name).isSome then none else some (Entries.set fields name value)
  | name :: path =>
    match fields.get? name with
    | none => (insert? [] path value).map fun inner ↦ Entries.set fields name (.map inner)
    | some (.map inner) =>
      (insert? inner path value).map fun inner ↦ Entries.set fields name (.map inner)
    | some _ => none

/-- A table or an array that was written as one value is closed: no later key leads into it. -/
def isClosed (closed : List (List String)) (path : List String) : Bool :=
  closed.any fun c ↦ c.isPrefixOf path

def isContainer : Value → Bool
  | .list _ => true
  | .map _ => true
  | _ => false

mutual

/-- A value at the beginning of the text. -/
def value : Nat → List Char → Except ReadError (Value × List Char)
  | 0, _ => .error .malformed
  | fuel + 1, cs =>
    match cs with
    | '[' :: rest =>
      match skipFiller? rest.length rest with
      | none => .error .malformed
      | some (']' :: rest) => .ok (.list [], rest)
      | some rest => (items fuel rest).map fun r ↦ (.list r.1, r.2)
    | '{' :: rest =>
      match skipSpace rest with
      | '}' :: rest => .ok (.map [], rest)
      | rest => (entries fuel [] [] rest).map fun r ↦ (.map r.1, r.2)
    | '"' :: _ => match string? cs with
      | some (body, rest) => .ok (.str (String.ofList body), rest)
      | none => .error .malformed
    | '\'' :: _ => match string? cs with
      | some (body, rest) => .ok (.str (String.ofList body), rest)
      | none => .error .malformed
    | cs => scalar cs

/-- The items of an array up to its closing bracket; a comma may stand before it. -/
def items : Nat → List Char → Except ReadError (List Value × List Char)
  | 0, _ => .error .malformed
  | fuel + 1, cs => do
    let (item, rest) ← value fuel cs
    match skipFiller? rest.length rest with
    | some (']' :: rest) => return ([item], rest)
    | some (',' :: rest) =>
      match skipFiller? rest.length rest with
      | some (']' :: rest) => return ([item], rest)
      | some rest =>
        let (more, rest) ← items fuel rest
        return (item :: more, rest)
      | none => .error .malformed
    | _ => .error .malformed

/-- The entries of an inline table up to its closing brace, added to those before. -/
def entries : Nat → Fields → List (List String) → List Char →
    Except ReadError (Fields × List Char)
  | 0, _, _, _ => .error .malformed
  | fuel + 1, fields, closed, cs =>
    match key? (cs.length + 1) cs with
    | some (path, '=' :: rest) => do
      let (v, rest) ← value fuel (skipSpace rest)
      if isClosed closed path then .error .malformed
      else
        match insert? fields path v with
        | none => .error .malformed
        | some fields =>
          match skipSpace rest with
          | '}' :: rest => return (fields, rest)
          | ',' :: rest =>
            let closed := if isContainer v then path :: closed else closed
            entries fuel fields closed (skipSpace rest)
          | _ => .error .malformed
    | _ => .error .malformed

end

end Admission.Toml
