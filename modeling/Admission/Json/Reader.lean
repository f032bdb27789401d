import Admission.Text.Percent
import Admission.Value

/-!
Reading documents in JavaScript object notation. Names repeated in an object are settled for the
last one, `NaN` and the infinities are numbers, and an integer of more than 4300 digits is refused
with its number of digits. Octets are decoded by their byte order mark, or else by the place of zero
octets.

A string may hold a half of a surrogate pair on its own, escaped or in octets. No text can hold such
a half here, so that a document with one has no value here. But it is a document, and told from one
that breaks the grammar: what the readers below make of a code point is a parameter of theirs.
-/

set_option autoImplicit false
set_option relaxedAutoImplicit false

namespace Admission.Json

/-- Why a document has no value: it breaks the grammar, an integer exceeds the digit limit, or it
holds a half of a surrogate pair on its own. -/
inductive Refusal
  | malformed
  | tooManyDigits (count : Nat)
  | loneHalf
  deriving DecidableEq, Repr

/-- What was read, and what follows it. -/
abbrev Reading (α : Type) := Except Refusal (α × List Char)

def isSpace (c : Char) : Bool :=
  c == ' ' || c == '\t' || c == '\n' || c == '\r'

def skipSpace (cs : List Char) : List Char :=
  cs.dropWhile isSpace

def hexUnit? (a b c d : Char) : Option Nat := do
  let high := (← Text.hexValue? a) * 16 + (← Text.hexValue? b)
  return (high * 16 + (← Text.hexValue? c)) * 16 + (← Text.hexValue? d)

def shortEscape? : Char → Option Char
  | '"' => some '"'
  | '\\' => some '\\'
  | '/' => some '/'
  | 'b' => some '\x08'
  | 'f' => some '\x0c'
  | 'n' => some '\n'
  | 'r' => some '\r'
  | 't' => some '\t'
  | _ => none

/-- The low half of a surrogate pair, and what follows it. -/
def lowHalf? : List Char → Option (Nat × List Char)
  | '\\' :: 'u' :: a :: b :: c :: d :: rest => do
    let low ← hexUnit? a b c d
    if Text.isLowSurrogate low then some (low, rest) else none
  | _ => none

/-- The code point of one unit, or of two if they are a surrogate pair, and what follows it. -/
def joinHalves (unit : Nat) (rest : List Char) : Nat × List Char :=
  if Text.isHighSurrogate unit then
    match lowHalf? rest with
    | some (low, rest) => (Text.surrogatePair unit low, rest)
    | none => (unit, rest)
  else (unit, rest)

section Strings

variable (char? : Nat → Option Char)

/-- The character that an escape stands for. -/
def escaped? : List Char → Option (Char × List Char)
  | 'u' :: a :: b :: c :: d :: rest => do
    let (point, rest) := joinHalves (← hexUnit? a b c d) rest
    return (← char? point, rest)
  | c :: rest => (shortEscape? c).map fun c ↦ (c, rest)
  | [] => none

/-- One character of a string, written plainly or escaped. -/
def item? : List Char → Option (Char × List Char)
  | [] => none
  | '\\' :: rest => escaped? char? rest
  | c :: rest => if c.toNat < 32 then none else some (c, rest)

theorem lowHalf?_length {cs rest : List Char} {n : Nat} (h : lowHalf? cs = some (n, rest)) :
    rest.length < cs.length := by
  unfold lowHalf? at h
  split at h
  · obtain ⟨low, _, h⟩ := Option.bind_eq_some_iff.1 h
    split at h
    · cases h
      simp only [List.length_cons]
      omega
    · cases h
  · cases h

theorem joinHalves_length (unit : Nat) (rest : List Char) :
    (joinHalves unit rest).2.length ≤ rest.length := by
  unfold joinHalves
  split
  · split
    · rename_i hlow
      exact Nat.le_of_lt (lowHalf?_length hlow)
    · exact Nat.le_refl _
  · exact Nat.le_refl _

variable {char?}

theorem escaped?_length {cs rest : List Char} {c : Char} (h : escaped? char? cs = some (c, rest)) :
    rest.length < cs.length := by
  unfold escaped? at h
  split at h
  · rename_i behind
    obtain ⟨unit, _, h⟩ := Option.bind_eq_some_iff.1 h
    have := joinHalves_length unit behind
    generalize joinHalves unit behind = joined at *
    obtain ⟨c, _, h⟩ := Option.bind_eq_some_iff.1 h
    cases h
    simp only [List.length_cons]
    omega
  · obtain ⟨c, _, h⟩ := Option.map_eq_some_iff.1 h
    cases h
    simp
  · cases h

/-- A character leaves less to read. -/
theorem item?_length {cs rest : List Char} {c : Char} (h : item? char? cs = some (c, rest)) :
    rest.length < cs.length := by
  unfold item? at h
  split at h
  · simp at h
  · have := escaped?_length h
    simp only [List.length_cons]
    omega
  · split at h
    · simp at h
    · simp only [Option.some.injEq, Prod.mk.injEq] at h
      obtain ⟨_, rfl⟩ := h
      simp

variable (char?)

/-- The characters of a string behind its opening quote, and what follows the closing one. -/
def stringBody? (cs : List Char) : Option (List Char × List Char) :=
  if cs.head? = some '"' then some ([], cs.drop 1)
  else
    match h : item? char? cs with
    | none => none
    | some (c, rest) =>
      have := item?_length h
      (stringBody? rest).map fun r ↦ (c :: r.1, r.2)
termination_by cs.length

def readString (cs : List Char) : Reading String :=
  match stringBody? char? cs with
  | some (body, rest) => .ok (String.ofList body, rest)
  | none => .error .malformed

end Strings

/-- The whole part of a number: a zero alone, or digits that do not begin with one. -/
def wholePart? : List Char → Option (List Char × List Char)
  | '0' :: rest => some (['0'], rest)
  | c :: rest => if Numeral.isDigit c then some ((c :: rest).span Numeral.isDigit) else none
  | [] => none

/-- The digits behind a point, if any follow it. -/
def fractionPart (cs : List Char) : List Char × List Char :=
  match cs with
  | '.' :: rest =>
    let (digits, tail) := rest.span Numeral.isDigit
    if digits.isEmpty then ([], cs) else (digits, tail)
  | _ => ([], cs)

/-- The exponent, if the letter is followed by one. -/
def exponentPart (cs : List Char) : Option Int × List Char :=
  match cs with
  | e :: rest =>
    if e = 'e' || e = 'E' then
      let (negative, body) := Numeral.signed rest
      let (digits, tail) := body.span Numeral.isDigit
      if digits.isEmpty then (none, cs)
      else (some (Numeral.applySign negative (Numeral.ofDigits digits)), tail)
    else (none, cs)
  | [] => (none, cs)

/-- A number without its sign. -/
def readNumber (negative : Bool) (cs : List Char) : Reading Value :=
  match wholePart? cs with
  | none => .error .malformed
  | some (whole, rest) =>
    let (fraction, rest) := fractionPart rest
    let (exponent, rest) := exponentPart rest
    if fraction.isEmpty && exponent.isNone then
      if Numeral.digitLimit < whole.length then .error (.tooManyDigits whole.length)
      else .ok (.int (Numeral.applySign negative (Numeral.ofDigits whole)), rest)
    else
      .ok (.float (Binary64.ofDecimal negative (Numeral.ofDigits (whole ++ fraction))
        (exponent.getD 0 - fraction.length)), rest)

/-- The values that are written as words, and numbers. -/
def readScalar (cs : List Char) : Reading Value :=
  match cs with
  | 'n' :: 'u' :: 'l' :: 'l' :: rest => .ok (.null, rest)
  | 't' :: 'r' :: 'u' :: 'e' :: rest => .ok (.bool true, rest)
  | 'f' :: 'a' :: 'l' :: 's' :: 'e' :: rest => .ok (.bool false, rest)
  | 'N' :: 'a' :: 'N' :: rest => .ok (.float .nan, rest)
  | 'I' :: 'n' :: 'f' :: 'i' :: 'n' :: 'i' :: 't' :: 'y' :: rest =>
    .ok (.float (.infinite false), rest)
  | '-' :: 'I' :: 'n' :: 'f' :: 'i' :: 'n' :: 'i' :: 't' :: 'y' :: rest =>
    .ok (.float (.infinite true), rest)
  | '-' :: rest => readNumber true rest
  | cs => readNumber false cs

section Values

variable (char? : Nat → Option Char)

mutual

/-- A value at the beginning of the text. Two units of fuel for each character are enough. -/
def readValue : Nat → List Char → Except Refusal (Value × List Char)
  | 0, _ => .error .malformed
  | fuel + 1, cs =>
    match cs with
    | '"' :: rest => (readString char? rest).map fun r ↦ (.str r.1, r.2)
    | '[' :: rest =>
      match skipSpace rest with
      | ']' :: rest => .ok (.list [], rest)
      | rest => (readItems fuel rest).map fun r ↦ (.list r.1, r.2)
    | '{' :: rest =>
      match skipSpace rest with
      | '}' :: rest => .ok (.map [], rest)
      | rest => (readEntries fuel rest).map fun r ↦ (.map (Fields.ofEntries r.1), r.2)
    | cs => readScalar cs

/-- The items of a list up to its closing bracket. -/
def readItems : Nat → List Char → Except Refusal (List Value × List Char)
  | 0, _ => .error .malformed
  | fuel + 1, cs => do
    let (item, rest) ← readValue fuel cs
    match skipSpace rest with
    | ']' :: rest => return ([item], rest)
    | ',' :: rest =>
      let (items, rest) ← readItems fuel (skipSpace rest)
      return (item :: items, rest)
    | _ => .error .malformed

/-- The entries of an object up to its closing brace. -/
def readEntries : Nat → List Char → Except Refusal (List (String × Value) × List Char)
  | 0, _ => .error .malformed
  | fuel + 1, cs =>
    match cs with
    | '"' :: rest => do
      let (name, rest) ← readString char? rest
      match skipSpace rest with
      | ':' :: rest =>
        let (value, rest) ← readValue fuel (skipSpace rest)
        match skipSpace rest with
        | '}' :: rest => return ([(name, value)], rest)
        | ',' :: rest =>
          let (entries, rest) ← readEntries fuel (skipSpace rest)
          return ((name, value) :: entries, rest)
        | _ => .error .malformed
      | _ => .error .malformed
    | _ => .error .malformed

end

/-- The value that a text holds as a whole. -/
def readWhole (cs : List Char) : Except Refusal Value := do
  let (value, rest) ← readValue char? (2 * cs.length + 2) (skipSpace cs)
  if (skipSpace rest).isEmpty then return value else .error .malformed

end Values

/-- What is known of a text that is read as some document if halves of surrogate pairs may be in it,
but has no value here. -/
def withHalves (reading : Except Refusal Value) : Except Refusal Value :=
  match reading with
  | .ok _ => .error .loneHalf
  | .error e => .error e

/-- The value of a document. -/
def readChars (cs : List Char) : Except Refusal Value :=
  match readWhole Text.charOf? cs with
  | .error .malformed => withHalves (readWhole Text.anyCharOf? cs)
  | reading => reading

/-- The value of a document; a byte order mark that is left in the text is refused. -/
def read (s : String) : Except Refusal Value :=
  readChars s.toList

/-- The characters of a document in octets. -/
def decode? (char? : Nat → Option Char) (octets : List UInt8) : Option (List Char) :=
  match octets with
  | 0 :: 0 :: 0xFE :: 0xFF :: rest => Text.decodeUtf32 char? .big rest
  | 0xFF :: 0xFE :: 0 :: 0 :: rest => Text.decodeUtf32 char? .little rest
  | 0xFE :: 0xFF :: rest => Text.decodeUtf16 char? .big rest
  | 0xFF :: 0xFE :: rest => Text.decodeUtf16 char? .little rest
  | 0xEF :: 0xBB :: 0xBF :: rest => Text.decodeUtf8By char? rest
  | a :: b :: c :: d :: _ =>
    if a = 0 then
      if b = 0 then Text.decodeUtf32 char? .big octets else Text.decodeUtf16 char? .big octets
    else if b = 0 then
      if c = 0 && d = 0 then Text.decodeUtf32 char? .little octets
      else Text.decodeUtf16 char? .little octets
    else Text.decodeUtf8By char? octets
  | [a, b] =>
    if a = 0 then Text.decodeUtf16 char? .big octets
    else if b = 0 then Text.decodeUtf16 char? .little octets
    else Text.decodeUtf8By char? octets
  | _ => Text.decodeUtf8By char? octets

def readOctets (octets : List UInt8) : Except Refusal Value :=
  match decode? Text.charOf? octets with
  | some cs => readChars cs
  | none =>
    match decode? Text.anyCharOf? octets with
    | some cs => withHalves (readWhole Text.anyCharOf? cs)
    | none => .error .malformed

end Admission.Json
