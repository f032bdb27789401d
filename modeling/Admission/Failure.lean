import Admission.Number.Shortest

/-!
Failures of an authorization: why it could not be decided, or why it was refused. Each has a code, a
status for the error page and a message.
-/

set_option autoImplicit false
set_option relaxedAutoImplicit false

namespace Admission

inductive Failure
  | general (message : String)
  /-- The provider could not be reached, or took too long. -/
  | transport (message : String) (url : Option String)
  /-- The provider answered with a status that says nothing about the question. -/
  | unexpectedStatus (status : Int) (url : String) (detail : String)
  /-- The profile lacks what a user needs. -/
  | invalidProfile (message : String)
  /-- An entry is settled neither way. -/
  | indeterminate (entry : String) (cause : Failure)
  | tokenUnavailable (message : String)
  | denied (username reason : String)
  deriving DecidableEq

namespace Failure

def message : Failure → String
  | general message => message
  | transport message _ => message
  | unexpectedStatus status url detail =>
    let base := s!"Unexpected response status {status} from {url}"
    if detail.isEmpty then base else s!"{base}: {detail}"
  | invalidProfile message => message
  | indeterminate entry cause => s!"Membership check for '{entry}' failed: {cause.message}"
  | tokenUnavailable message => message
  | denied username reason => s!"User '{username}' is not authorized: {reason}"

def code : Failure → String
  | general _ => "gatepass.error"
  | transport _ _ => "provider.transport"
  | unexpectedStatus _ _ _ => "provider.unexpected_status"
  | invalidProfile _ => "provider.invalid_profile"
  | indeterminate _ _ => "membership.indeterminate"
  | tokenUnavailable _ => "auth.token_unavailable"
  | denied _ _ => "auth.forbidden"

/-- The status that the error page is shown with. -/
def pageStatus : Failure → Nat
  | general _ => 500
  | transport _ _ => 502
  | unexpectedStatus _ _ _ => 502
  | invalidProfile _ => 502
  | indeterminate _ _ => 503
  | tokenUnavailable _ => 401
  | denied _ _ => 403

/-- A query that could not be sent or answered. -/
def unreachable (url reason : String) : Failure :=
  .transport s!"Unable to reach identity provider at {url}: {reason}" (some url)

def profileUnreachable (url reason : String) : Failure :=
  .transport s!"Unable to fetch user info from {url}: {reason}" (some url)

/-- An entry whose time budget, in seconds, is used up. -/
def timedOut (entry : String) (budget : Binary64) : Failure :=
  .transport s!"Membership check for '{entry}' timed out after {budget.text}s" none

def redirectWithoutTarget (status : Int) (url : String) : Failure :=
  .unexpectedStatus status url "redirect without a Location header"

def unreadableMembership (url : String) : Failure :=
  .unexpectedStatus 200 url "unreadable team membership body"

def profileNotJson : Failure := .invalidProfile "Profile response is not valid JSON"
def profileNotObject : Failure := .invalidProfile "Profile response must be a JSON object"
def loginMissing : Failure := .invalidProfile "GitHub profile is missing the 'login' field"
def identityMissing : Failure :=
  .invalidProfile "OpenID profile has no preferred_username, email or sub claim"
def malformedIdToken : Failure := .invalidProfile "Provider returned a malformed ID token"
def tokenMissing : Failure := .tokenUnavailable "No provider access token for this login"
def tokenExpired : Failure := .tokenUnavailable "Provider access token has expired"

/-- What the error page shows: the status, the message with its code, and further headers, if
any. -/
structure Page where
  status : Nat
  message : String
  code : String
  headers : Option (List (String × String))

def page (f : Failure) (headers : List (String × String)) : Page :=
  { status := f.pageStatus, message := f.message, code := f.code
    headers := if headers.isEmpty then none else some headers }

end Failure

end Admission
