import Admission.Fault
import Admission.Json.Reader
import Admission.Text.Blank

/-!
Lists of texts from loosely typed values. A text on its own is read as a document, or else split at
commas and blanks; inside a list texts are only trimmed. Numbers count by their text, maps by their
values, and blank texts and repetitions are left out.
-/

set_option autoImplicit false
set_option relaxedAutoImplicit false

namespace Admission.TextList

/-- Adds a text behind the others unless it is empty or there already. -/
def addNew (done : List String) (s : String) : List String :=
  if s.isEmpty || done.contains s then done else done ++ [s]

/-- The text itself, if it is not blank. -/
def single (s : String) : List String :=
  let s := Text.trim s
  if s.isEmpty then [] else [s]

def written (v : Value) : Except Fault (List String) :=
  match v.text? with
  | some s => .ok (single s)
  | none => .error .integerTooLong

mutual

/-- The texts of a value that is not read as a document. -/
def ofNested : Value → Except Fault (List String)
  | .null => .ok []
  | .list items => ofItems [] items
  | .map entries => ofEntries [] entries
  | .str s => .ok (single s)
  | .bool b => written (.bool b)
  | .int n => written (.int n)
  | .float x => written (.float x)
  | .moment m => written (.moment m)

def ofItems (done : List String) : List Value → Except Fault (List String)
  | [] => .ok done
  | v :: rest => do
    let texts ← ofNested v
    ofItems (texts.foldl addNew done) rest

def ofEntries (done : List String) : List (String × Value) → Except Fault (List String)
  | [] => .ok done
  | (_, v) :: rest => do
    let texts ← ofNested v
    ofEntries (texts.foldl addNew done) rest

end

/-- Splits a text at commas and blanks. -/
def split (cs : List Char) : List String :=
  (Text.words (cs.map fun c ↦ if c = ',' then ' ' else c)).map String.ofList

/-- What a text on its own stands for. -/
def parse (s : String) : Except Fault Value :=
  let cs := Text.trimChars s.toList
  if cs.isEmpty then .ok (.list [])
  else
    match Json.readChars cs with
    | .ok v => .ok v
    | .error .malformed => .ok (.list ((split cs).map .str))
    | .error (.tooManyDigits n) => .error (.numeralTooLong n)
    | .error .loneHalf => .error .loneHalf

/-- The texts of a value. -/
def ofValue : Value → Except Fault (List String)
  | .str s => do ofNested (← parse s)
  | v => ofNested v

end Admission.TextList
