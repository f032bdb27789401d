import Admission.Whitelist

/-!
What a single authorization reads: the endpoints and limits for talking to the provider, and the
whitelists.
-/

set_option autoImplicit false
set_option relaxedAutoImplicit false

namespace Admission

/-- A number of tenths as a floating point number. -/
def Binary64.ofTenths (n : Nat) : Binary64 :=
  .ofRat (mkRat n 10)

structure ProviderSettings where
  name : String := "github"
  userInfoUrl : String := "https://api.github.com/user"
  userOrgUrl : String := "https://api.github.com/orgs/\x7borg\x7d/members/\x7busername\x7d"
  userTeamUrl : String :=
    "https://api.github.com/orgs/\x7borg\x7d/teams/\x7bteam\x7d/memberships/\x7busername\x7d"
  httpTimeout : Binary64 := .ofTenths 100
  /-- The time budget of one entry, in seconds. -/
  probeTimeout : Binary64 := .ofTenths 150
  probeMaxRetries : Nat := 2
  probeBackoff : Binary64 := .ofTenths 5
  probeBackoffCap : Binary64 := .ofTenths 100
  probeConcurrency : Nat := 8
  deriving DecidableEq

structure Settings where
  provider : ProviderSettings := {}
  whitelist : Whitelist := {}
  deriving DecidableEq

end Admission
