import Admission.Time.Timestamp

/-!
The person who logs in, as the identity provider describes them, and the tokens of the login.
-/

set_option autoImplicit false
set_option relaxedAutoImplicit false

namespace Admission

structure User where
  username : String := ""
  email : String := ""
  name : String := ""
  id : Int := 0
  createdOn : Int := 0
  lastUpdate : Int := 0
  memberships : List String := []
  deriving DecidableEq

namespace User

/-- Adds a membership once, behind those granted before. -/
def addMembership (user : User) (entry : String) : User :=
  if user.memberships.contains entry then user
  else { user with memberships := user.memberships ++ [entry] }

end User

structure Tokens where
  access : String
  refresh : Option String := none
  identity : Option String := none
  expiry : Option Timestamp.Instant := none
  deriving DecidableEq

namespace Tokens

/-- Whether the access token has expired; none if the expiry has no offset from universal time and
cannot be compared with a clock. The clock counts microseconds since the beginning of 1970. -/
def isExpired? (tokens : Tokens) (clock : Int) : Option Bool :=
  match tokens.expiry with
  | none => some false
  | some expiry => if expiry.zoned then some (expiry.micros ≤ clock) else none

end Tokens

end Admission
