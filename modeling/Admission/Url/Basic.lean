import Admission.Text.Percent
import Admission.Text.Quoted

/-!
Addresses of resources in normal form, what can be wrong with one, and its text. All parts are kept
in encoded form; a missing query differs from an empty one, and so does a missing fragment.
-/

set_option autoImplicit false
set_option relaxedAutoImplicit false

namespace Admission

structure Url where
  scheme : List Char
  userinfo : List Char
  host : List Char
  port : Option Int
  path : List Char
  query : Option (List Char)
  fragment : Option (List Char)
  deriving DecidableEq

namespace Url

/-- The parts that an address is put together from. -/
inductive Part
  | scheme
  | authority
  | path
  | query
  | fragment
  | host
  deriving DecidableEq, Repr

def Part.name : Part → String
  | scheme => "scheme"
  | authority => "authority"
  | path => "path"
  | query => "query"
  | fragment => "fragment"
  | host => "host"

/-- Why a text is no address. -/
inductive Defect
  | tooLong
  | partTooLong (part : Part)
  | unprintable (c : Char) (place : Nat)
  | unprintableIn (part : Part) (c : Char) (place : Nat)
  | malformed (part : Part)
  | badAddress4 (host : List Char)
  | badAddress6 (host : List Char)
  /-- Characters outside ASCII in a host name. It is left open whether it has a form in ASCII. -/
  | international (host : List Char)
  | badPort (port : List Char)
  | pathWithoutSlash
  | pathWithTwoSlashes
  | pathWithColon
  deriving DecidableEq

def Defect.message : Defect → String
  | tooLong => "URL too long"
  | partTooLong part => s!"URL component '{part.name}' too long"
  | unprintable c place =>
    s!"Invalid non-printable ASCII character in URL, {Text.quoted c.toString} at position {place}."
  | unprintableIn part c place =>
    s!"Invalid non-printable ASCII character in URL {part.name} component, " ++
      s!"{Text.quoted c.toString} at position {place}."
  | malformed part => s!"Invalid URL component '{part.name}'"
  | badAddress4 host => s!"Invalid IPv4 address: {Text.quoted (String.ofList host)}"
  | badAddress6 host => s!"Invalid IPv6 address: {Text.quoted (String.ofList host)}"
  | international host => s!"Invalid IDNA hostname: {Text.quoted (String.ofList host)}"
  | badPort port => s!"Invalid port: {Text.quoted (String.ofList port)}"
  | pathWithoutSlash => "For absolute URLs, path must be empty or begin with '/'"
  | pathWithTwoSlashes => "Relative URLs cannot have a path starting with '//'"
  | pathWithColon => "Relative URLs cannot have a path starting with ':'"

/-- User information, host and port as they stand in the text; a host with colons has brackets. -/
def authority (u : Url) : List Char :=
  (if u.userinfo.isEmpty then [] else u.userinfo ++ ['@']) ++
    (if u.host.contains ':' then '[' :: (u.host ++ [']']) else u.host) ++
    match u.port with
    | some port => ':' :: (toString port).toList
    | none => []

/-- A mark and the part that it introduces, if there is one. -/
def marked (mark : Char) : Option (List Char) → List Char
  | some part => mark :: part
  | none => []

def chars (u : Url) : List Char :=
  (if u.scheme.isEmpty then [] else u.scheme ++ [':']) ++
    (if u.authority.isEmpty then [] else '/' :: '/' :: u.authority) ++
    u.path ++ marked '?' u.query ++ marked '#' u.fragment

def text (u : Url) : String :=
  String.ofList u.chars

/-- An address that names a scheme and a host stands on its own. -/
def isAbsolute (u : Url) : Bool :=
  !u.scheme.isEmpty && !u.host.isEmpty

/-- Path and query as a request line shows them. -/
def target (u : Url) : List Char :=
  (if u.path.isEmpty then ['/'] else u.path) ++ marked '?' u.query

/-- User name and password, decoded; none if both are empty. -/
def credentials (u : Url) : Option (List Char × List Char) :=
  let (name, rest) := u.userinfo.span (· != ':')
  let name := Text.percentDecode name
  let password := Text.percentDecode (rest.drop 1)
  if name.isEmpty && password.isEmpty then none else some (name, password)

end Url

end Admission
