import Admission.Value

/-!
Writing values in JavaScript object notation, in ASCII: entries are separated by a comma and a
blank, names and values by a colon and a blank.
-/

set_option autoImplicit false
set_option relaxedAutoImplicit false

namespace Admission.Json

/-- The escape of one unit of sixteen bits. -/
def escapeUnit (n : Nat) : List Char :=
  '\\' :: 'u' :: Text.hexDigits n 4

def writeChar (c : Char) : List Char :=
  let n := c.toNat
  if c = '"' || c = '\\' then ['\\', c]
  else if c = '\n' then ['\\', 'n']
  else if c = '\r' then ['\\', 'r']
  else if c = '\t' then ['\\', 't']
  else if c = '\x0c' then ['\\', 'f']
  else if c = '\x08' then ['\\', 'b']
  else if 32 ≤ n && n < 127 then [c]
  else if n < 0x10000 then escapeUnit n
  else escapeUnit (0xD800 + (n - 0x10000) / 0x400) ++ escapeUnit (0xDC00 + (n - 0x10000) % 0x400)

def writeString (s : String) : String :=
  "\"" ++ String.ofList (s.toList.flatMap writeChar) ++ "\""

def writeFloat (x : Binary64) : String :=
  match x with
  | .nan => "NaN"
  | .infinite negative => if negative then "-Infinity" else "Infinity"
  | x => x.text

mutual

def write : Value → String
  | .null => "null"
  | .bool b => if b then "true" else "false"
  | .int n => toString n
  | .float x => writeFloat x
  | .str s => writeString s
  | .moment m => writeString m.text
  | .list items => "[" ++ String.intercalate ", " (writeAll items) ++ "]"
  | .map entries => "\x7b" ++ String.intercalate ", " (writeEntries entries) ++ "\x7d"

def writeAll : List Value → List String
  | [] => []
  | v :: rest => write v :: writeAll rest

def writeEntries : List (String × Value) → List String
  | [] => []
  | (k, v) :: rest => (writeString k ++ ": " ++ write v) :: writeEntries rest

end

end Admission.Json
