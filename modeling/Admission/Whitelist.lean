import Admission.TextList
import Admission.Text.Case

/-!
Whitelists: who may pass, by name, by the domain of the mail address, or by membership of a group.
-/

set_option autoImplicit false
set_option relaxedAutoImplicit false

namespace Admission

structure Whitelist where
  allowAll : Bool := false
  users : List String := []
  domains : List String := []
  teams : List String := []
  deriving DecidableEq

namespace Whitelist

/-- The form in which a domain is listed: in lower case and without points in front. -/
def listedDomain (s : String) : String :=
  String.ofList ((Text.lowerChars s.toList).dropWhile (· == '.'))

/-- The whitelist of loosely typed values. -/
def build (allowAll : Bool) (users domains teams : Value) : Except Fault Whitelist := do
  let users ← TextList.ofValue users
  let domains ← TextList.ofValue domains
  let teams ← TextList.ofValue teams
  return { allowAll, users, domains := domains.map listedDomain, teams }

/-- The distinct texts of a list by code points, in ascending order. -/
def sorted (texts : List String) : List String :=
  texts.eraseDups.mergeSort fun a b ↦ !decide (b < a)

end Whitelist

end Admission
