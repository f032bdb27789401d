import Admission.Entries
import Admission.Number.Shortest
import Admission.Number.Numeral
import Admission.Text.Quoted
import Admission.Time.Moment

/-!
Loosely typed values: what a document, an environment variable or a caller hands over before
anything is checked. A map keeps its keys in the order in which they first came.
-/

set_option autoImplicit false
set_option relaxedAutoImplicit false

namespace Admission

inductive Value
  | null
  | bool (b : Bool)
  | int (n : Int)
  | float (x : Binary64)
  | str (s : String)
  | moment (m : Moment)
  | list (items : List Value)
  | map (entries : List (String × Value))

/-- Why a text denotes no value: it breaks the grammar, or an integer exceeds the digit limit. -/
inductive ReadError
  | malformed
  | tooManyDigits (count : Nat)
  deriving DecidableEq, Repr

/-- Values by name, in the order of first entry. -/
abbrev Fields := List (String × Value)

namespace Fields

def get? (fields : Fields) (key : String) : Option Value :=
  fields.lookup key

/-- The fields of a list of entries, of which the last with a name wins. -/
def ofEntries (entries : List (String × Value)) : Fields :=
  Entries.update [] entries

end Fields

namespace Value

instance : Inhabited Value := ⟨null⟩

/-- The value of an absent field is null. -/
def ofOption (v : Option Value) : Value :=
  v.getD null

/-- Null, false, zero and everything empty are unset. -/
def isSet : Value → Bool
  | null => false
  | bool b => b
  | int n => n != 0
  | float x => x.toRat? != some 0
  | str s => !s.isEmpty
  | moment _ => true
  | list items => !items.isEmpty
  | map entries => !entries.isEmpty

def boolText (b : Bool) : String :=
  if b then "True" else "False"

mutual

/-- The text of a value inside a list or a map; none if an integer exceeds the digit limit. -/
def code? : Value → Option String
  | null => some "None"
  | bool b => some (boolText b)
  | int n => Numeral.intText? n
  | float x => some x.text
  | str s => some (Text.quoted s)
  | moment m => some m.code
  | list items => (codes? items).map fun parts ↦ "[" ++ String.intercalate ", " parts ++ "]"
  | map entries =>
    (entryCodes? entries).map fun parts ↦ "\x7b" ++ String.intercalate ", " parts ++ "\x7d"

def codes? : List Value → Option (List String)
  | [] => some []
  | v :: rest => do
    let part ← code? v
    return part :: (← codes? rest)

def entryCodes? : List (String × Value) → Option (List String)
  | [] => some []
  | (k, v) :: rest => do
    let part ← code? v
    return (Text.quoted k ++ ": " ++ part) :: (← entryCodes? rest)

end

/-- The text of a value on its own: as inside a list, but without quotes. -/
def text? : Value → Option String
  | str s => some s
  | moment m => some m.text
  | v => code? v

end Value

end Admission
