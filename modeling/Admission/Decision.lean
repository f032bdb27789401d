import Admission.EmailDomain
import Admission.Fault
import Admission.Membership
import Admission.User
import Admission.Whitelist

/-!
Decisions: which rule of a whitelist lets a user pass, the cheapest rules first.
-/

set_option autoImplicit false
set_option relaxedAutoImplicit false

namespace Admission

/-- The rule that lets a user pass, or none. -/
inductive Decision
  | everyone
  | user (name : String)
  | domain (name : String)
  | team (entry : String)
  | refused
  deriving DecidableEq

namespace Decision

def allowed : Decision → Bool
  | refused => false
  | _ => true

def reason : Decision → String
  | everyone => "all users are allowed"
  | user name => s!"user {name} is whitelisted"
  | domain name => s!"email domain {name} is whitelisted"
  | team entry => s!"member of {entry}"
  | refused => "no whitelist rule matched"

/-- Whether the facts say that an entry is a membership; what they do not mention is none. -/
def holds (facts : List (String × Bool)) (entry : String) : Bool :=
  (facts.lookup entry).getD false

end Decision

/-- Decides whether a user may pass, given which entries are memberships. -/
def evaluate (user : User) (whitelist : Whitelist) (facts : List (String × Bool)) : Decision :=
  if whitelist.allowAll then .everyone
  else if !user.username.isEmpty && whitelist.users.contains user.username then
    .user user.username
  else
    let domain := EmailDomain.ofEmail? user.email
    if EmailDomain.isCovered domain whitelist.domains then .domain (domain.getD "")
    else
      match whitelist.teams.find? (Decision.holds facts) with
      | some entry => .team entry
      | none => .refused

def authorize (user : User) (whitelist : Whitelist) (facts : List (String × Bool)) : Bool :=
  (evaluate user whitelist facts).allowed

/-- The decision, unless it refuses. -/
def verify (user : User) (whitelist : Whitelist) (facts : List (String × Bool)) :
    Except Failure Decision :=
  let decision := evaluate user whitelist facts
  if decision.allowed then .ok decision
  else .error (.denied user.username decision.reason)

end Admission
