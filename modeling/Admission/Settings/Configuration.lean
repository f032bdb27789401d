import Admission.Settings.Basic

/-!
Checked configuration. Each setting is read from loosely typed values, filled with its default where
it is missing, and refused by name where it makes no sense.
-/

set_option autoImplicit false
set_option relaxedAutoImplicit false

namespace Admission

/-- The providers that users can log in with. -/
inductive Provider
  | github
  | oidc
  deriving DecidableEq, Repr

def Provider.name : Provider → String
  | github => "github"
  | oidc => "oidc"

def Provider.ofName? (name : String) : Option Provider :=
  if name = "github" then some github
  else if name = "oidc" then some oidc
  else none

/-- The checked settings; the three lists are kept as they were given. -/
structure Configuration where
  provider : Provider
  allowAllUsers : Bool
  whitelist : Value
  domains : Value
  teamWhitelist : Value
  userInfoUrl : String
  userOrgUrl : String
  userTeamUrl : String
  httpTimeout : Binary64
  probeTimeout : Binary64
  probeMaxRetries : Nat
  probeBackoff : Binary64
  probeBackoffCap : Binary64
  probeConcurrency : Nat

namespace Configuration

def defaults : ProviderSettings := {}

/-- The value of a setting; a missing one counts as null where no default is given. -/
def value (source : Fields) (setting : Setting) : Value :=
  Value.ofOption (source.get? setting.key)

/-- The value of a setting, or its default if it is missing or null. -/
def valueOr (source : Fields) (setting : Setting) (default : Value) : Value :=
  match value source setting with
  | .null => default
  | v => v

/-- The text of a value. -/
def textOf (v : Value) : Except Fault String :=
  match v.text? with
  | some s => .ok s
  | none => .error .integerTooLong

def readProvider (source : Fields) : Except Fault Provider := do
  let name ← textOf (valueOr source .provider (.str "github"))
  match Provider.ofName? (Text.lower (Text.trim name)) with
  | some p => return p
  | none => .error (.badSetting .provider .knownProvider)

/-- A flag: a truth value, or one of the words for it. -/
def readFlag (setting : Setting) : Value → Except Fault Bool
  | .bool b => .ok b
  | v => do
    let word := Text.lower (Text.trim (← textOf v))
    if ["1", "true", "yes", "on"].contains word then return true
    else if ["0", "false", "no", "off", ""].contains word then return false
    else .error (.badSetting setting .boolean)

/-- Whether all users pass; only a missing value means that they do not, and null is refused. -/
def readAllowAll (source : Fields) : Except Fault Bool :=
  match source.get? Setting.allowAllUsers.key with
  | none => .ok false
  | some v => readFlag .allowAllUsers v

/-- An address as it was given, trimmed, or its default if it is unset. -/
def readAddress (source : Fields) (setting : Setting) (default : String) : Except Fault String :=
  let v := value source setting
  (textOf (if v.isSet then v else .str default)).map Text.trim

/-- The floating point number of a value, if it has one. -/
def toFloat (setting : Setting) : Value → Except Fault Binary64
  | .bool b => .ok (.ofInt (if b then 1 else 0))
  | .int n =>
    let x := Binary64.ofInt n
    if x.isFinite then .ok x else .error .integerTooLarge
  | .float x => .ok x
  | .str s =>
    match Numeral.float? s with
    | some x => .ok x
    | none => .error (.badSetting setting .number)
  | _ => .error (.badSetting setting .number)

/-- The integer of a value, if it has one; fractions are cut off. -/
def toInt (setting : Setting) : Value → Except Fault Int
  | .bool b => .ok (if b then 1 else 0)
  | .int n => .ok n
  | .float x =>
    match x, x.truncate? with
    | _, some n => .ok n
    | .infinite _, _ => .error .infiniteInteger
    | _, none => .error (.badSetting setting .integer)
  | .str s =>
    match Numeral.int? s with
    | some n => .ok n
    | none => .error (.badSetting setting .integer)
  | _ => .error (.badSetting setting .integer)

/-- A limit that must not compare as zero or less. -/
def readPositive (source : Fields) (setting : Setting) (default : Binary64) :
    Except Fault Binary64 := do
  let x ← toFloat setting (valueOr source setting (.float default))
  if x.le .zero then .error (.badSetting setting .positive) else return x

/-- The pause before the first retry; null is no number, and a missing one is the default. -/
def readBackoff (source : Fields) : Except Fault Binary64 := do
  let given := (source.get? Setting.probeBackoff.key).getD (.float defaults.probeBackoff)
  let x ← toFloat .probeBackoff given
  if x.lt .zero then .error (.badSetting .probeBackoff .notNegative) else return x

def readCount (source : Fields) (setting : Setting) (default least : Nat) : Except Fault Nat := do
  let n ← toInt setting (valueOr source setting (.int default))
  if n < least then .error (.badSetting setting (.atLeast least)) else return n.toNat

/-- Checks all settings in a fixed order; the first one at fault is named. -/
def normalize (source : Fields) : Except Fault Configuration := do
  let provider ← readProvider source
  let allowAllUsers ← readAllowAll source
  let userInfoUrl ← readAddress source .userInfoUrl defaults.userInfoUrl
  let userOrgUrl ← readAddress source .userOrgUrl defaults.userOrgUrl
  let userTeamUrl ← readAddress source .userTeamUrl defaults.userTeamUrl
  if provider = .oidc && !(value source .userInfoUrl).isSet then
    .error (.badSetting .userInfoUrl .setForOidc)
  else
    let httpTimeout ← readPositive source .httpTimeout defaults.httpTimeout
    let probeTimeout ← readPositive source .probeTimeout defaults.probeTimeout
    let probeBackoffCap ← readPositive source .probeBackoffCap defaults.probeBackoffCap
    let probeBackoff ← readBackoff source
    let probeMaxRetries ← readCount source .probeMaxRetries defaults.probeMaxRetries 0
    let probeConcurrency ← readCount source .probeConcurrency defaults.probeConcurrency 1
    return {
      provider, allowAllUsers
      whitelist := value source .whitelist
      domains := value source .domains
      teamWhitelist := value source .teamWhitelist
      userInfoUrl, userOrgUrl, userTeamUrl, httpTimeout, probeTimeout
      probeMaxRetries, probeBackoff, probeBackoffCap, probeConcurrency }

/-- The checked settings as fields. -/
def toFields (c : Configuration) : Fields := [
  (Setting.provider.key, .str c.provider.name),
  (Setting.allowAllUsers.key, .bool c.allowAllUsers),
  (Setting.whitelist.key, c.whitelist),
  (Setting.domains.key, c.domains),
  (Setting.teamWhitelist.key, c.teamWhitelist),
  (Setting.userInfoUrl.key, .str c.userInfoUrl),
  (Setting.userOrgUrl.key, .str c.userOrgUrl),
  (Setting.userTeamUrl.key, .str c.userTeamUrl),
  (Setting.httpTimeout.key, .float c.httpTimeout),
  (Setting.probeTimeout.key, .float c.probeTimeout),
  (Setting.probeMaxRetries.key, .int c.probeMaxRetries),
  (Setting.probeBackoff.key, .float c.probeBackoff),
  (Setting.probeBackoffCap.key, .float c.probeBackoffCap),
  (Setting.probeConcurrency.key, .int c.probeConcurrency)]

def providerSettings (c : Configuration) : ProviderSettings :=
  { name := c.provider.name, userInfoUrl := c.userInfoUrl, userOrgUrl := c.userOrgUrl
    userTeamUrl := c.userTeamUrl, httpTimeout := c.httpTimeout, probeTimeout := c.probeTimeout
    probeMaxRetries := c.probeMaxRetries, probeBackoff := c.probeBackoff
    probeBackoffCap := c.probeBackoffCap, probeConcurrency := c.probeConcurrency }

/-- The settings for authorizations. -/
def settings (c : Configuration) : Except Fault Settings := do
  let whitelist ← Whitelist.build c.allowAllUsers c.whitelist c.domains c.teamWhitelist
  return { provider := c.providerSettings, whitelist }

end Configuration

end Admission
