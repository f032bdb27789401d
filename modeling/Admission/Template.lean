import Admission.Number.Numeral
import Admission.Text.Quoted

/-!
Text templates. Names in braces are replaced by their values, and doubled braces stand for
themselves. A field may pick one character of its value by number, ask for the quoted form, and lay
the text out by a fill character, an alignment, a width and a largest length; that layout may
contain fields too.
-/

set_option autoImplicit false
set_option relaxedAutoImplicit false

namespace Admission.Template

/-- Why a template cannot be filled. -/
inductive Defect
  | unknownName (name : List Char)
  | position (index : Nat)
  | noSuchAttribute (name : List Char)
  | badIndex (name : List Char)
  | indexOutOfRange
  | singleOpen
  | singleClose
  | openInName
  | unclosed
  | noConversion
  | noColon
  | unmatchedInLayout
  | emptyAttribute
  | missingBracket
  | afterBracket
  | tooManyDigits
  | tooDeep
  | unknownConversion (c : Char)
  | unknownFormat (c : Char)
  | badLayout (layout : List Char)
  | noPrecision
  | bothSeparators
  | separator (mark kind : Char)
  | blankSign
  | sign
  | negativeZero
  | alternate
  | signAlignment
  deriving DecidableEq

/-- A character as messages name it: itself if it is plain ASCII, else its code. -/
def charName (c : Char) : String :=
  if 32 < c.toNat && c.toNat < 127 then c.toString
  else "\\x" ++ String.ofList (Nat.toDigits 16 c.toNat)

def Defect.message : Defect → String
  | unknownName name => Text.quoted (String.ofList name)
  | position index => s!"Replacement index {index} out of range for positional args tuple"
  | noSuchAttribute name => s!"'str' object has no attribute '{String.ofList name}'"
  | badIndex _ => "string indices must be integers, not 'str'"
  | indexOutOfRange => "string index out of range"
  | singleOpen => "Single '\x7b' encountered in format string"
  | singleClose => "Single '\x7d' encountered in format string"
  | openInName => "unexpected '\x7b' in field name"
  | unclosed => "expected '\x7d' before end of string"
  | noConversion => "end of string while looking for conversion specifier"
  | noColon => "expected ':' after conversion specifier"
  | unmatchedInLayout => "unmatched '\x7b' in format spec"
  | emptyAttribute => "Empty attribute in format string"
  | missingBracket => "Missing ']' in format string"
  | afterBracket => "Only '.' or '[' may follow ']' in format field specifier"
  | tooManyDigits => "Too many decimal digits in format string"
  | tooDeep => "Max string recursion exceeded"
  | unknownConversion c => s!"Unknown conversion specifier {charName c}"
  | unknownFormat c => s!"Unknown format code '{charName c}' for object of type 'str'"
  | badLayout layout =>
    s!"Invalid format specifier '{String.ofList layout}' for object of type 'str'"
  | noPrecision => "Format specifier missing precision"
  | bothSeparators => "Cannot specify both ',' and '_'."
  | separator mark kind => s!"Cannot specify '{mark.toString}' with '{charName kind}'."
  | blankSign => "Space not allowed in string format specifier"
  | sign => "Sign not allowed in string format specifier"
  | negativeZero => "Negative zero coercion (z) not allowed in string format specifier"
  | alternate => "Alternate form (#) not allowed in string format specifier"
  | signAlignment => "'=' alignment not allowed in string format specifier"

/-- A field as it is written: what it names, the conversion letter and the layout. -/
structure Field where
  name : List Char
  conversion : Option Char
  layout : List Char

/-- Templates are rows of plain characters and fields, up to the first defect. -/
inductive Piece
  | plain (c : Char)
  | field (f : Field)
  | defect (d : Defect)

/-- The name of a field, the mark that ends it, and what follows the mark. Brackets hide marks. -/
def cutName (bracketed : Bool) : List Char → Except Defect (List Char × Option Char × List Char)
  | [] => .ok ([], none, [])
  | c :: rest =>
    if bracketed then
      (cutName (c != ']') rest).map fun r ↦ (c :: r.1, r.2)
    else if c = '{' then .error .openInName
    else if c = '}' || c = ':' || c = '!' then .ok ([], some c, rest)
    else (cutName (c == '[') rest).map fun r ↦ (c :: r.1, r.2)

/-- The layout up to the brace that closes the field; `depth` more braces are open in it. -/
def cutLayout (depth : Nat) : List Char → Option (List Char × List Char)
  | [] => none
  | c :: rest =>
    if c = '}' then
      match depth with
      | 0 => some ([], rest)
      | depth + 1 => (cutLayout depth rest).map fun r ↦ (c :: r.1, r.2)
    else
      (cutLayout (if c = '{' then depth + 1 else depth) rest).map fun r ↦ (c :: r.1, r.2)

def fieldOf (name : List Char) (conversion : Option Char) (cs : List Char) :
    Except Defect (Field × List Char) :=
  match cutLayout 0 cs with
  | some (layout, rest) => .ok (⟨name, conversion, layout⟩, rest)
  | none => .error .unmatchedInLayout

/-- The field behind an opening brace, and what follows it. -/
def cutField (cs : List Char) : Except Defect (Field × List Char) := do
  match ← cutName false cs with
  | (_, none, _) => .error .unclosed
  | (name, some mark, rest) =>
    if mark = '}' then return (⟨name, none, []⟩, rest)
    else if mark = ':' then fieldOf name none rest
    else
      match rest with
      | [] => .error .noConversion
      | [c] => fieldOf name (some c) []
      | c :: d :: rest =>
        if d = '}' then return (⟨name, some c, []⟩, rest)
        else if d = ':' then fieldOf name (some c) rest
        else .error .noColon

/-- The pieces of a text, of which the fuel exceeds the length. -/
def piecesWithin : Nat → List Char → List Piece
  | 0, _ => []
  | fuel + 1, cs =>
    match cs with
    | [] => []
    | '{' :: '{' :: rest => .plain '{' :: piecesWithin fuel rest
    | '}' :: '}' :: rest => .plain '}' :: piecesWithin fuel rest
    | ['{'] => [.defect .singleOpen]
    | '}' :: _ => [.defect .singleClose]
    | '{' :: rest =>
      match cutField rest with
      | .ok (f, rest) => .field f :: piecesWithin fuel rest
      | .error d => [.defect d]
    | c :: rest => .plain c :: piecesWithin fuel rest

def pieces (cs : List Char) : List Piece :=
  piecesWithin (cs.length + 1) cs

/-- The largest number that may stand in a template. -/
def numberLimit : Nat := 0x7FFFFFFFFFFFFFFF

/-- The number at the beginning of a text, in digits of any script, and what follows it. -/
def cutNumber (cs : List Char) : Except Defect (Option Nat × List Char) :=
  let (digits, rest) := cs.span fun c ↦ Numeral.isDigit (Numeral.asciiDigit c)
  let n := Numeral.ofDigits (digits.map Numeral.asciiDigit)
  if digits.isEmpty then .ok (none, cs)
  else if numberLimit < n then .error .tooManyDigits
  else .ok (some n, rest)

/-- The number that a text denotes as a whole. One that is too large is refused whatever follows
it. -/
def wholeNumber? (cs : List Char) : Except Defect (Option Nat) := do
  let (n, rest) ← cutNumber cs
  return if rest.isEmpty then n else none

/-- Follows the attributes and indices behind a name; a text has no attributes. -/
def access (value : List Char) : Nat → List Char → Except Defect (List Char)
  | 0, _ => .ok value
  | fuel + 1, cs =>
    match cs with
    | [] => .ok value
    | '.' :: rest =>
      let name := rest.takeWhile fun c ↦ c != '.' && c != '['
      if name.isEmpty then .error .emptyAttribute else .error (.noSuchAttribute name)
    | '[' :: rest => do
      let (name, rest) := rest.span (· != ']')
      if rest.isEmpty then .error .missingBracket
      else
        let index ← wholeNumber? name
        if name.isEmpty then .error .emptyAttribute
        else
          match index with
          | none => .error (.badIndex name)
          | some i =>
            match value[i]? with
            | none => .error .indexOutOfRange
            | some c => access [c] fuel (rest.drop 1)
    | _ => .error .afterBracket

/-- The values that a template may name. -/
abbrev Bindings := List (List Char × List Char)

/-- The value of what a field names. Positions are never bound. -/
def lookUp (bindings : Bindings) (name : List Char) : Except Defect (List Char) := do
  let (first, rest) := name.span fun c ↦ c != '.' && c != '['
  if first.isEmpty then .error (.position 0)
  else
    match ← wholeNumber? first with
    | some n => .error (.position n)
    | none =>
      match bindings.lookup first with
      | none => .error (.unknownName first)
      | some value => access value rest.length rest

def convert (value : List Char) : Option Char → Except Defect (List Char)
  | none => .ok value
  | some c =>
    if c = 's' then .ok value
    else if c = 'r' then .ok (Text.quotedChars value)
    else if c = 'a' then .ok (Text.quotedAscii (String.ofList value)).toList
    else .error (.unknownConversion c)

/-- How a text is laid out. -/
structure Layout where
  fill : Char
  align : Char
  width : Option Nat
  precision : Option Nat

def isAlign (c : Char) : Bool :=
  c == '<' || c == '>' || c == '=' || c == '^'

/-- Fill character and alignment at the beginning of a layout. -/
def cutAlign (cs : List Char) : Option Char × Option Char × List Char :=
  let single := match cs with
    | a :: rest => if isAlign a then (none, some a, rest) else (none, none, cs)
    | [] => (none, none, [])
  match cs with
  | f :: a :: rest => if isAlign a then (some f, some a, rest) else single
  | _ => single

def cutOption (isOne : Char → Bool) (cs : List Char) : Option Char × List Char :=
  match cs with
  | c :: rest => if isOne c then (some c, rest) else (none, cs)
  | [] => (none, [])

/-- The separators of thousands, which are read before they are refused. -/
def cutSeparator (cs : List Char) : Except Defect (Option Char × List Char) :=
  match cs with
  | ',' :: '_' :: _ => .error .bothSeparators
  | '_' :: ',' :: _ => .error .bothSeparators
  | ',' :: rest => .ok (some ',', rest)
  | '_' :: rest => .ok (some '_', rest)
  | cs => .ok (none, cs)

def cutPrecision (cs : List Char) : Except Defect (Option Nat × List Char) := do
  match cs with
  | '.' :: rest =>
    match ← cutNumber rest with
    | (none, _) => .error .noPrecision
    | r => return r
  | cs => return (none, cs)

/-- A separator of thousands goes only with numeric kinds. -/
def takesSeparator (mark kind : Char) : Bool :=
  "deEfgG%F\x00".toList.contains kind || (mark == '_' && "boxX".toList.contains kind)

/-- Reads a layout; options that only numbers have are refused. -/
def readLayout (cs : List Char) : Except Defect Layout := do
  let (fill, align, rest) := cutAlign cs
  let (sign, rest) := cutOption (fun c ↦ c == ' ' || c == '+' || c == '-') rest
  let (zero, rest) := cutOption (· == 'z') rest
  let (alternate, rest) := cutOption (· == '#') rest
  let (padding, rest) := if fill.isNone then cutOption (· == '0') rest else (none, rest)
  let (width, rest) ← cutNumber rest
  let (mark, rest) ← cutSeparator rest
  let (precision, rest) ← cutPrecision rest
  match rest with
  | _ :: _ :: _ => .error (.badLayout cs)
  | rest =>
    let kind := rest.headD 's'
    match mark with
    | some m => if takesSeparator m kind then pure () else .error (.separator m kind)
    | none => pure ()
    if kind != 's' then .error (.unknownFormat kind)
    else if sign = some ' ' then .error .blankSign
    else if sign.isSome then .error .sign
    else if zero.isSome then .error .negativeZero
    else if alternate.isSome then .error .alternate
    else if align = some '=' then .error .signAlignment
    else
      return { fill := (fill <|> padding).getD ' ', align := align.getD '<', width, precision }

def Layout.apply (l : Layout) (cs : List Char) : List Char :=
  let cs := match l.precision with
    | some n => cs.take n
    | none => cs
  let missing := l.width.getD 0 - cs.length
  let left := if l.align = '>' then missing else if l.align = '^' then missing / 2 else 0
  List.replicate left l.fill ++ cs ++ List.replicate (missing - left) l.fill

/-- Lays out a text; an empty layout leaves it as it is. -/
def layOut (layout cs : List Char) : Except Defect (List Char) :=
  if layout.isEmpty then .ok cs else (readLayout layout).map fun l ↦ l.apply cs

/-- The text of a piece; `expand` fills the fields inside a layout. -/
def fillPiece (bindings : Bindings) (expand : List Char → Except Defect (List Char)) :
    Piece → Except Defect (List Char)
  | .plain c => .ok [c]
  | .defect d => .error d
  | .field f => do
    let value ← convert (← lookUp bindings f.name) f.conversion
    let layout ← if f.layout.contains '{' then expand f.layout else .ok f.layout
    layOut layout value

/-- Fills a template; `depth` tells how many templates may be nested, the outermost one included. -/
def fillWithin (bindings : Bindings) : Nat → List Char → Except Defect (List Char)
  | 0, _ => .error .tooDeep
  | depth + 1, cs =>
    ((pieces cs).mapM (fillPiece bindings (fillWithin bindings depth))).map List.flatten

def fill (bindings : Bindings) (template : List Char) : Except Defect (List Char) :=
  fillWithin bindings 2 template

end Admission.Template
