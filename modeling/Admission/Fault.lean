import Admission.Failure
import Admission.Group
import Admission.Template
import Admission.Url.Basic
import Admission.Value

/-!
Faults: what goes wrong outside the failures of an authorization, in the settings, the templates,
the addresses or the arithmetic, or because the call is given up.
-/

set_option autoImplicit false
set_option relaxedAutoImplicit false

namespace Admission

/-- The names under which operators set things. -/
inductive Setting
  | provider
  | allowAllUsers
  | whitelist
  | domains
  | teamWhitelist
  | userInfoUrl
  | userOrgUrl
  | userTeamUrl
  | httpTimeout
  | probeTimeout
  | probeMaxRetries
  | probeBackoff
  | probeBackoffCap
  | probeConcurrency
  deriving DecidableEq, Repr

def Setting.key : Setting → String
  | provider => "PROVIDER"
  | allowAllUsers => "ALLOW_ALL_USERS"
  | whitelist => "WHITELIST"
  | domains => "DOMAINS"
  | teamWhitelist => "TEAM_WHITELIST"
  | userInfoUrl => "USER_INFO_URL"
  | userOrgUrl => "USER_ORG_URL"
  | userTeamUrl => "USER_TEAM_URL"
  | httpTimeout => "HTTP_TIMEOUT"
  | probeTimeout => "PROBE_TIMEOUT"
  | probeMaxRetries => "PROBE_MAX_RETRIES"
  | probeBackoff => "PROBE_BACKOFF"
  | probeBackoffCap => "PROBE_BACKOFF_CAP"
  | probeConcurrency => "PROBE_CONCURRENCY"

/-- What a setting's value should have been. -/
inductive Demand
  | knownProvider
  | boolean
  | number
  | positive
  | notNegative
  | integer
  | atLeast (least : Nat)
  | setForOidc
  deriving DecidableEq, Repr

def Demand.text : Demand → String
  | knownProvider => "must be either 'github' or 'oidc'."
  | boolean => "must be a boolean."
  | number => "must be a number."
  | positive => "must be greater than zero."
  | notNegative => "must not be negative."
  | integer => "must be an integer."
  | atLeast least => s!"must be at least {least}."
  | setForOidc => "must be set when using the oidc provider."

inductive Fault
  | template (defect : Template.Defect)
  | address (defect : Url.Defect)
  | badSetting (setting : Setting) (demand : Demand)
  | unknownProvider (name : String)
  | malformedEntry (entry : String)
  /-- An integer in a text has too many digits. -/
  | numeralTooLong (digits : Nat)
  /-- An integer has too many digits to be written. -/
  | integerTooLong
  /-- An integer is too large for a floating point number. -/
  | integerTooLarge
  | infiniteInteger
  /-- An expiry without an offset cannot be compared with the clock. -/
  | clockMismatch
  | reservedField (name : String)
  /-- Characters outside ASCII in a header: the first of them, their place and their number. -/
  | unencodable (c : Char) (place count : Nat)
  | cancelled
  /-- A document holds a half of a surrogate pair on its own. What becomes of it is left open. -/
  | loneHalf
  deriving DecidableEq

def Fault.message : Fault → String
  | template defect => defect.message
  | address defect => defect.message
  | badSetting setting demand => s!"GATEPASS_{setting.key} {demand.text}"
  | unknownProvider name => s!"Unsupported identity provider '{name}'"
  | malformedEntry entry => Group.malformedMessage entry
  | numeralTooLong digits =>
    s!"Exceeds the limit ({Numeral.digitLimit} digits) for integer string conversion: " ++
      s!"value has {digits} digits; use sys.set_int_max_str_digits() to increase the limit"
  | integerTooLong =>
    s!"Exceeds the limit ({Numeral.digitLimit} digits) for integer string conversion; " ++
      "use sys.set_int_max_str_digits() to increase the limit"
  | integerTooLarge => "int too large to convert to float"
  | infiniteInteger => "cannot convert float infinity to integer"
  | clockMismatch => "can't compare offset-naive and offset-aware datetimes"
  | reservedField name => Text.quoted s!"Attempt to overwrite {Text.quoted name} in LogRecord"
  | unencodable c place count =>
    let what := if count = 1 then
        s!"character '{String.ofList (Text.escapeCode c)}' in position {place}"
      else s!"characters in position {place}-{place + count - 1}"
    s!"'ascii' codec can't encode {what}: ordinal not in range(128)"
  | cancelled => ""
  | loneHalf => ""

/-- The group that an entry names. One that names none is at fault. -/
def Group.read (entry : String) : Except Fault Group :=
  match ofEntry? entry with
  | some group => .ok group
  | none => .error (.malformedEntry entry)

/-- Whatever ends a login without a decision. -/
inductive Problem
  | failure (f : Failure)
  | fault (f : Fault)
  deriving DecidableEq

def Problem.message : Problem → String
  | failure f => f.message
  | fault f => f.message

end Admission
