import Admission.Exchange.Timeline
import Admission.Settings.Basic
import Admission.User

/-!
Preparing a login: the tokens to use with the provider, and the client that talks to it. The usual
way hands on the tokens of the login unless the access token is missing or has expired.
-/

set_option autoImplicit false
set_option relaxedAutoImplicit false

namespace Admission

/-- A client for one login. -/
structure Client where
  timeout : Binary64
  followsRedirects : Bool
  accept : String
  agent : String
  deriving DecidableEq

def Client.make (settings : ProviderSettings) : Client :=
  { timeout := settings.httpTimeout, followsRedirects := false, accept := "application/json"
    agent := "gatepass" }

/-- How tokens are prepared: checked and handed on, or handed out unchecked, others if they are
given. -/
inductive Preparer
  | standard
  | unchecked (other : Option Tokens)
  deriving DecidableEq

/-- The notice about the address that a login comes from, if it is known. -/
def clientNotice (address : Option String) : List Notice :=
  match address with
  | some a => if a.isEmpty then [] else [.preparingClient a]
  | none => []

/-- Checks tokens and hands them on. The clock counts microseconds since the beginning of 1970. -/
def checkTokens (clock : Int) (fresh : Bool) (address : Option String) (tokens : Tokens) :
    Except Problem (Tokens × List Notice) :=
  if tokens.access.isEmpty then .error (.failure .tokenMissing)
  else if fresh then
    match tokens.isExpired? clock with
    | none => .error (.fault .clockMismatch)
    | some true => .error (.failure .tokenExpired)
    | some false => .ok (tokens, clientNotice address)
  else .ok (tokens, clientNotice address)

/-- The tokens for a login, which must be fresh, and the notices on the way. -/
def Preparer.prepare (p : Preparer) (clock : Int) (address : Option String) (tokens : Tokens) :
    Except Problem (Tokens × List Notice) :=
  match p with
  | .standard => checkTokens clock true address tokens
  | .unchecked other => .ok (other.getD tokens, [])

end Admission
