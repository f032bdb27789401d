import Admission.Text.Blank
import Admission.Text.Case

/-!
Domains of mail addresses, and the rule by which a domain is covered by a listed one: it is the
same, or it ends in a point and the listed one.
-/

set_option autoImplicit false
set_option relaxedAutoImplicit false

namespace Admission.EmailDomain

/-- What follows the last at sign of a text that has one. -/
def afterAt? (cs : List Char) : Option (List Char) :=
  if cs.contains '@' then some (cs.reverse.takeWhile (· != '@')).reverse else none

/-- The domain of a mail address in lower case. -/
def ofEmail? (email : String) : Option String :=
  match afterAt? (Text.trimChars email.toList) with
  | none => none
  | some domain =>
    if domain.isEmpty then none else some (String.ofList (Text.lowerChars domain))

/-- The domain is the listed one, or lies below it. -/
def isWithin (domain listed : String) : Bool :=
  domain == listed || ('.' :: listed.toList).isSuffixOf domain.toList

/-- Some listed domain covers the given one. -/
def isCovered (domain : Option String) (listed : List String) : Bool :=
  match domain with
  | none => false
  | some domain => !domain.isEmpty && listed.any (isWithin domain)

end Admission.EmailDomain
