import Admission.Fault
import Admission.Json.Reader
import Admission.Text.Base64

/-!
Identity tokens: header, claims and signature in three segments with points between them. The claims
are read without looking at the signature, but all three segments have to be well formed.
-/

set_option autoImplicit false
set_option relaxedAutoImplicit false

namespace Admission.IdToken

/-- The object that a segment holds, if it holds one. -/
def object (segment : List Char) : Except Fault (Option Fields) :=
  match (Text.Base64.decode? segment).map Json.readOctets with
  | some (.ok (.map fields)) => .ok (some fields)
  | some (.error .loneHalf) => .error .loneHalf
  | _ => .ok none

/-- The names that a token may declare as critical. -/
def knownExtension : String := "b64"

/-- A critical name has to be known and present. -/
def isMetCritical (header : Fields) : Value → Bool
  | .str name => name == knownExtension && (header.get? name).isSome
  | _ => false

/-- The conditions on a header: the key's name is a text, the critical names are met, and the
payload is encoded. -/
def acceptsHeader (header : Fields) : Bool :=
  (match header.get? "kid" with
    | none => true
    | some (.str _) => true
    | some _ => false) &&
  (match header.get? "crit" with
    | none => true
    | some (.list names) => !names.isEmpty && names.all (isMetCritical header)
    | some _ => false) &&
  (match header.get? knownExtension with
    | some (.bool false) => false
    | _ => true)

/-- The claims of a token, if it is well formed. -/
def claims (token : String) : Except Fault (Option Fields) :=
  match token.toList.splitOn '.' with
  | [header, payload, signature] =>
    if (Text.Base64.decode? signature).isNone then .ok none
    else do
      match ← object header with
      | some fields => if acceptsHeader fields then object payload else return none
      | none => return none
  | _ => .ok none

end Admission.IdToken
