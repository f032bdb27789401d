import Admission.Settings.Configuration
import Admission.Toml.Document

/-!
Environment variables as a source of settings. A text is read as a value in the notation of
configuration files, `True` and `False` counting as truth values; a text that is none stands for
itself.
-/

set_option autoImplicit false
set_option relaxedAutoImplicit false

namespace Admission

/-- Variables by name, without the common beginning of their names. -/
abbrev Environment := List (String × String)

namespace Environment

/-- Sets or removes a variable. -/
def assign (env : Environment) (name : String) (value : Option String) : Environment :=
  match value with
  | some text => Entries.set env name text
  | none => Entries.erase env name

/-- The value that a text stands for. -/
def readText (text : String) : Except Fault Value :=
  let trimmed := Text.trim text
  let source := if trimmed = "True" || trimmed = "False" then Text.lower text else text
  match Toml.read source with
  | .ok v => .ok v
  | .error .malformed => .ok (.str source)
  | .error (.tooManyDigits n) => .error (.numeralTooLong n)

/-- The values of all variables, by names in upper case. -/
def source (env : Environment) : Except Fault Fields := do
  let entries ← env.mapM fun e ↦ do
    let v ← readText e.2
    return (Text.upperAscii e.1, v)
  return Fields.ofEntries entries

def configuration (env : Environment) : Except Fault Configuration := do
  Configuration.normalize (← env.source)

end Environment

end Admission
