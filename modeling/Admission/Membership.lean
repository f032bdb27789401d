import Admission.Entries
import Admission.Failure

/-!
Answers to the question whether a user belongs to the group of a whitelist entry.
-/

set_option autoImplicit false
set_option relaxedAutoImplicit false

namespace Admission

inductive Standing
  | member
  | notMember
  | failed (error : Failure)
  deriving DecidableEq

namespace Standing

def name : Standing → String
  | member => "member"
  | notMember => "not_member"
  | failed _ => "error"

def ofAnswer (isMember : Bool) : Standing :=
  if isMember then member else notMember

def error? : Standing → Option Failure
  | failed error => some error
  | _ => none

end Standing

structure Membership where
  entry : String
  standing : Standing
  deriving DecidableEq

namespace Membership

/-- Only a confirmed membership counts. -/
def isMember (m : Membership) : Bool :=
  m.standing = .member

def error? (m : Membership) : Option Failure :=
  m.standing.error?

/-- Whether each entry is a membership, errors counting as none; the last answer for an entry
wins. -/
def facts (results : List Membership) : List (String × Bool) :=
  Entries.update [] (results.map fun m ↦ (m.entry, m.isMember))

end Membership

end Admission
