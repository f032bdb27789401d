import Admission.Fault
import Admission.Text.Base64
import Admission.Url.Form
import Admission.Url.Join

/-!
Requests to a provider and what comes back. A request that cannot be answered is broken; so is one
whose answer redirects to something that is no address.
-/

set_option autoImplicit false
set_option relaxedAutoImplicit false

namespace Admission

structure Request where
  url : Url
  authorization : Option String := none
  deriving DecidableEq

structure Response where
  status : Int
  /-- Names and values as octets. -/
  headers : List (List UInt8 × List UInt8) := []
  body : List UInt8 := []
  deriving DecidableEq

/-- What a request leads to: a response, or the reason why there is none. -/
inductive Answer
  | response (r : Response)
  | broken (reason : String)
  deriving DecidableEq

namespace Response

/-- The encoding that all headers of a response have in common. -/
def decodeHeaders (headers : List (List UInt8 × List UInt8)) : List (List Char × List Char) :=
  let decode (f : List UInt8 → Option (List Char)) :=
    headers.mapM fun h ↦ do return (← f h.1, ← f h.2)
  match decode Text.decodeAscii with
  | some hs => hs
  | none =>
    match decode Text.decodeUtf8 with
    | some hs => hs
    | none => headers.map fun h ↦ (Text.decodeLatin1 h.1, Text.decodeLatin1 h.2)

/-- The value of a header; repeated ones are joined with commas. Case does not matter in names. -/
def header? (r : Response) (name : String) : Option String :=
  let values := ((decodeHeaders r.headers).filter fun h ↦
    h.1.map Numeral.foldAscii == name.toList).map fun h ↦ String.ofList h.2
  if values.isEmpty then none else some (String.intercalate ", " values)

def location? (r : Response) : Option String :=
  r.header? "location"

def retryAfter? (r : Response) : Option String :=
  r.header? "retry-after"

/-- The statuses that redirect. -/
def isRedirect (r : Response) : Bool :=
  [301, 302, 303, 307, 308].contains r.status

/-- The statuses that confirm a membership. -/
def isConfirmation (r : Response) : Bool :=
  [200, 204].contains r.status

end Response

/-- Statuses after which the same query may succeed later. -/
def isTransient (status : Int) : Bool :=
  status = 429 || 500 ≤ status

namespace Request

/-- The header for credentials that stand in an address. -/
def basicHeader (name password : List Char) : String :=
  "Basic " ++ String.ofList
    (Text.Base64.encode (Text.encodeUtf8 (name ++ ':' :: password)))

/-- A header has to be in ASCII. -/
def checkHeader (value : String) : Except Fault Unit :=
  let cs := value.toList
  let front := cs.takeWhile fun c ↦ c.toNat < 128
  match cs.drop front.length with
  | [] => .ok ()
  | c :: rest =>
    .error (.unencodable c front.length ((rest.takeWhile fun c ↦ 128 ≤ c.toNat).length + 1))

def checkAuthorization : Option String → Except Fault Unit
  | some value => checkHeader value
  | none => .ok ()

def liftDefect {α : Type} (r : Except Url.Defect α) : Except Fault α :=
  r.mapError .address

/-- A request for an address; a parameter replaces those of the address, and credentials inside it
replace the given authorization. -/
def make (address : String) (parameter : Option (String × String))
    (authorization : Option String) : Except Fault Request := do
  let url ← liftDefect (do (← Url.parse address.toList).asRequested)
  checkAuthorization authorization
  let url ← match parameter with
    | some (name, value) => liftDefect (url.withParameter name.toList value.toList)
    | none => .ok url
  let authorization := match url.credentials with
    | some (name, password) => some (basicHeader name password)
    | none => authorization
  return { url, authorization }

/-- Completes the target of a redirect by what it lacks: the host, the base and the fragment. -/
def completeTarget (base target : Url) : Except Url.Defect Url := do
  let target ← if !target.scheme.isEmpty && target.host.isEmpty then target.withHost base.host
    else .ok target
  let target ← if target.isAbsolute then .ok target else base.join target
  if (base.fragment.getD []).isEmpty || !(target.fragment.getD []).isEmpty then return target
  else target.withFragment base.fragment

/-- Where a redirect leads: nowhere if its target is no address, and not even that far if the target
cannot be completed. -/
def checkRedirect (base : Url) (target : String) : Except Fault (Option String) :=
  match Url.parse target.toList with
  | .error d => .ok (some s!"Invalid URL in location header: {d.message}.")
  | .ok url =>
    match completeTarget base url with
    | .ok _ => .ok none
    | .error d => .error (.address d)

/-- What an answer means for a request: redirects are looked at, though not followed. -/
def receive (request : Request) (answer : Answer) : Except Fault Answer :=
  match answer with
  | .broken reason => .ok (.broken reason)
  | .response r =>
    match r.isRedirect, r.location? with
    | true, some target => do
      match ← checkRedirect request.url target with
      | none => return .response r
      | some reason => return .broken reason
    | _, _ => .ok (.response r)

end Request

end Admission
