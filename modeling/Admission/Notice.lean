import Admission.Settings.Basic

/-!
Notices that an authorization gives on its way, and the log records that they are written as.
-/

set_option autoImplicit false
set_option relaxedAutoImplicit false

namespace Admission

inductive Severity
  | debug
  | info
  | warning
  | error
  deriving DecidableEq, Repr

def Severity.name : Severity → String
  | debug => "DEBUG"
  | info => "INFO"
  | warning => "WARNING"
  | error => "ERROR"

inductive Notice
  /-- A query is sent again after a pause; the attempts are counted from one. -/
  | retryUnanswered (url : String) (attempt : Nat) (pause : Binary64)
  | retryStatus (status : Int) (url : String) (attempt : Nat) (pause : Binary64)
  | askingPublicly (url : String)
  | inOrganization (username org : String)
  | notInOrganization (username org : String)
  | organizationStatus (status : Int)
  | teamState (username org team : String) (state : Option String)
  | teamStatus (status : Int)
  | malformedEntry (entry : String)
  | checkFailed (error : Failure) (entry username : String)
  | malformedField (key : String) (value : String)
  | nonFiniteTimestamp (key : String) (value : String)
  | malformedTimestamp (key : String) (value : String)
  | teamsUnused (provider : String)
  | preparingClient (address : String)
  | indeterminate (error : Failure) (username entry : String)
  | decided (allowed : Bool) (username reason : String)
  | resolved (username : String) (memberships : List String)
  | teamsIgnored (username : String)
  deriving DecidableEq

/-- A log record: its severity, the logger, the text, and further fields. -/
structure LogRecord where
  severity : Severity
  logger : String
  message : String
  extra : Fields := []

namespace Notice

/-- A list of texts, quoted, in brackets. -/
def quotedList (texts : List String) : String :=
  "[" ++ String.intercalate ", " (texts.map Text.quoted) ++ "]"

def retryFields (url : String) (attempt : Nat) (pause : Binary64) : Fields :=
  [("url", .str url), ("attempt", .int attempt), ("delay", .float pause)]

def record : Notice → LogRecord
  | retryUnanswered url attempt pause =>
    { severity := .info, logger := "gatepass.probes"
      message := "Retrying membership query after transport error"
      extra := retryFields url attempt pause }
  | retryStatus status url attempt pause =>
    { severity := .info, logger := "gatepass.probes"
      message := s!"Retrying membership query after status {status}"
      extra := retryFields url attempt pause }
  | askingPublicly url =>
    { severity := .debug, logger := "gatepass.probes"
      message := "Checking public organization membership", extra := [("url", .str url)] }
  | inOrganization username org =>
    { severity := .debug, logger := "gatepass.probes"
      message := s!"{username} is a member of {org}" }
  | notInOrganization username org =>
    { severity := .debug, logger := "gatepass.probes"
      message := s!"{username} is not a member of {org}" }
  | organizationStatus status =>
    { severity := .error, logger := "gatepass.probes"
      message := s!"Unexpected organization membership status {status}" }
  | teamState username org team state =>
    { severity := .debug, logger := "gatepass.probes"
      message := s!"Team membership state for {username} in {org}/{team}: " ++
        state.getD "None" }
  | teamStatus status =>
    { severity := .error, logger := "gatepass.probes"
      message := s!"Unexpected team membership status {status}" }
  | malformedEntry entry =>
    { severity := .warning, logger := "gatepass.probes"
      message := Group.malformedMessage entry, extra := [("entry", .str entry)] }
  | checkFailed error entry username =>
    { severity := .warning, logger := "gatepass.probes"
      message := s!"Membership check failed: {error.message}"
      extra := [("entry", .str entry), ("username", .str username)] }
  | malformedField key value =>
    { severity := .debug, logger := "gatepass.profiles"
      message := s!"Ignoring malformed profile field {key}={value}" }
  | nonFiniteTimestamp key value =>
    { severity := .debug, logger := "gatepass.profiles"
      message := s!"Ignoring non-finite profile timestamp {key}={value}" }
  | malformedTimestamp key value =>
    { severity := .debug, logger := "gatepass.profiles"
      message := s!"Ignoring malformed profile timestamp {key}={value}" }
  | teamsUnused provider =>
    { severity := .warning, logger := "gatepass.settings"
      message := "GATEPASS_TEAM_WHITELIST is only evaluated for the github provider"
      extra := [("provider", .str provider)] }
  | preparingClient address =>
    { severity := .debug, logger := "gatepass.tokens"
      message := "Preparing provider client", extra := [("client_ip", .str address)] }
  | indeterminate error username entry =>
    { severity := .error, logger := "gatepass.providers"
      message := s!"Authorization indeterminate: {error.message}"
      extra := [("username", .str username), ("entry", .str entry)] }
  | decided allowed username reason =>
    { severity := .info, logger := "gatepass.providers"
      message := "Authorization " ++ (if allowed then "granted" else "denied") ++
        s!" for {username}: {reason}"
      extra := [("username", .str username)] }
  | resolved username memberships =>
    { severity := .debug, logger := "gatepass.providers.github"
      message := s!"Resolved GitHub user {username} with memberships {quotedList memberships}" }
  | teamsIgnored username =>
    { severity := .warning, logger := "gatepass.providers.openid"
      message := "Team whitelist entries are ignored by the OpenID handler"
      extra := [("username", .str username)] }

end Notice

end Admission
