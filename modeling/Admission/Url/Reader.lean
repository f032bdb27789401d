import Admission.Number.Numeral
import Admission.Url.Host

/-!
Reading addresses. The text is cut into five parts, each part is checked and brought into normal
form, and the result can be taken apart and put together again with some parts replaced.
-/

set_option autoImplicit false
set_option relaxedAutoImplicit false

namespace Admission.Url

/-- The longest text, and the longest part, that is accepted. -/
def lengthLimit : Nat := 65536

/-- The parts of an address before normalization. A host given apart replaces the one inside the
authority. -/
structure Parts where
  scheme : List Char
  authority : List Char
  path : List Char
  query : Option (List Char)
  fragment : Option (List Char)
  host : Option (List Char) := none

def isSchemeStart (c : Char) : Bool :=
  ('a' ≤ c && c ≤ 'z') || ('A' ≤ c && c ≤ 'Z')

def isSchemeChar (c : Char) : Bool :=
  Text.isAsciiAlnum c || c == '+' || c == '.' || c == '-'

/-- The scheme in front of the first colon, if what stands there has its form. -/
def cutScheme (cs : List Char) : List Char × List Char :=
  let (name, rest) := cs.span isSchemeChar
  match rest with
  | ':' :: rest' =>
    if (name.head?.map isSchemeStart).getD true then (name, rest') else ([], cs)
  | _ => ([], cs)

/-- What stands between a mark at the beginning and the first of some characters. -/
def cutMarked (mark : Char) (stops : List Char) (cs : List Char) :
    Option (List Char) × List Char :=
  match cs with
  | c :: rest =>
    if c = mark then
      let (part, rest) := rest.span fun c ↦ !stops.contains c
      (some part, rest)
    else (none, cs)
  | [] => (none, [])

def cutAuthority (cs : List Char) : List Char × List Char :=
  match cs with
  | '/' :: '/' :: rest => rest.span fun c ↦ !(['/', '?', '#'].contains c)
  | cs => ([], cs)

/-- The five parts of a text. Every text has them. -/
def cut (cs : List Char) : Parts :=
  let (scheme, rest) := cutScheme cs
  let (authority, rest) := cutAuthority rest
  let (path, rest) := rest.span fun c ↦ !(['?', '#'].contains c)
  let (query, rest) := cutMarked '?' ['#'] rest
  let (fragment, _) := cutMarked '#' [] rest
  { scheme, authority, path, query, fragment }

/-- User information before the last at sign, host, and port behind the host. -/
def cutHostPort (cs : List Char) : List Char × List Char × List Char :=
  let behind := (cs.reverse.takeWhile (· != '@')).reverse
  let userinfo := (cs.take (cs.length - behind.length)).dropLast
  let plain := behind.span fun c ↦ c != ':'
  let (host, rest) :=
    if behind.head? = some '[' && behind.contains ']' then
      let tail := (behind.reverse.takeWhile (· != ']')).reverse
      (behind.take (behind.length - tail.length), tail)
    else plain
  (userinfo, host, if rest.head? = some ':' then rest.drop 1 else rest)

def isUnprintable (c : Char) : Bool :=
  c.toNat < 32 || c.toNat == 127

def hasForm (part : Part) (cs : List Char) : Bool :=
  match part with
  | .scheme => (cs.head?.map isSchemeStart).getD true && cs.all isSchemeChar
  | .authority => !cs.any fun c ↦ ['/', '?', '#'].contains c
  | .path => !cs.any fun c ↦ ['?', '#'].contains c
  | .query => !cs.contains '#'
  | .fragment => true
  | .host => isBracketed cs || !cs.any fun c ↦ [':', '@'].contains c

/-- The checks of a part that is given apart. -/
def checkPart (part : Part) (cs : List Char) : Except Defect Unit :=
  if lengthLimit < cs.length then .error (.partTooLong part)
  else
    match cs.findIdx? isUnprintable with
    | some i => .error (.unprintableIn part (cs.getD i ' ') i)
    | none => if hasForm part cs then .ok () else .error (.malformed part)

def checkOptional (part : Part) : Option (List Char) → Except Defect Unit
  | some cs => checkPart part cs
  | none => .ok ()

def defaultPort (scheme : List Char) : Option Int :=
  match String.ofList scheme with
  | "ftp" => some 21
  | "http" => some 80
  | "https" => some 443
  | "ws" => some 80
  | "wss" => some 443
  | _ => none

/-- The port, unless it is the usual one of the scheme as written. -/
def normalPort (scheme port : List Char) : Except Defect (Option Int) :=
  if port.isEmpty then .ok none
  else
    match Numeral.int? (String.ofList port) with
    | none => .error (.badPort port)
    | some n => .ok (if defaultPort scheme = some n then none else some n)

def checkPath (path : List Char) (hasScheme hasAuthority : Bool) : Except Defect Unit :=
  if hasAuthority && !path.isEmpty && path.head? != some '/' then .error .pathWithoutSlash
  else if !hasScheme && !hasAuthority && path.take 2 == ['/', '/'] then
    .error .pathWithTwoSlashes
  else if !hasScheme && !hasAuthority && path.head? == some ':' then .error .pathWithColon
  else .ok ()

def dot : List Char := ['.']
def dotDot : List Char := ['.', '.']

/-- Adds a segment to those before it, the last one first: one dot adds nothing, and two dots remove
the last segment unless only the root is left. -/
def addSegment (done : List (List Char)) (segment : List Char) : List (List Char) :=
  if segment = dot then done
  else if segment = dotDot then
    if done = [] || done = [[]] then done else done.tail
  else segment :: done

/-- The path without segments of one or two dots. -/
def withoutDots (path : List Char) : List Char :=
  let segments := path.splitOn '/'
  if segments.contains dot || segments.contains dotDot then
    ['/'].intercalate (segments.foldl addSegment []).reverse
  else path

def isPlain (c : Char) : Bool :=
  32 < c.toNat && c.toNat < 127

def keepsInFragment (c : Char) : Bool :=
  isPlain c && !"\"<>`".toList.contains c

def keepsInQuery (c : Char) : Bool :=
  isPlain c && !"\"#<>".toList.contains c

def keepsInPath (c : Char) : Bool :=
  keepsInQuery c && !"?`\x7b\x7d".toList.contains c

def keepsInUserinfo (c : Char) : Bool :=
  keepsInPath c && !"/;=@[\\]^|".toList.contains c

/-- The normal form of an address given by its parts. -/
def ofParts (p : Parts) : Except Defect Url := do
  let (userinfo, host, port) := cutHostPort p.authority
  let scheme := Text.lowerChars p.scheme
  let userinfo := Text.percentEncode keepsInUserinfo userinfo
  let host ← normalHost (p.host.getD host)
  let port ← normalPort p.scheme port
  let hasScheme := !scheme.isEmpty
  let hasAuthority := !userinfo.isEmpty || !host.isEmpty || port.isSome
  checkPath p.path hasScheme hasAuthority
  let path := if hasScheme || hasAuthority then withoutDots p.path else p.path
  return {
    scheme, userinfo, host, port
    path := Text.percentEncode keepsInPath path
    query := p.query.map (Text.percentEncode keepsInQuery)
    fragment := p.fragment.map (Text.percentEncode keepsInFragment) }

/-- The address that a text denotes. -/
def parse (cs : List Char) : Except Defect Url :=
  if lengthLimit < cs.length then .error .tooLong
  else
    match cs.findIdx? isUnprintable with
    | some i => .error (.unprintable (cs.getD i ' ') i)
    | none => ofParts (cut cs)

/-- The parts of an address, to be put together anew. -/
def parts (u : Url) : Parts :=
  { scheme := u.scheme, authority := u.authority, path := u.path, query := u.query,
    fragment := u.fragment }

/-- Checks parts one by one and puts them together. -/
def assemble (p : Parts) : Except Defect Url := do
  checkPart .scheme p.scheme
  checkPart .authority p.authority
  checkPart .path p.path
  checkOptional .query p.query
  checkOptional .fragment p.fragment
  checkOptional .host p.host
  ofParts p

def withQuery (u : Url) (query : Option (List Char)) : Except Defect Url :=
  assemble { u.parts with query }

def withFragment (u : Url) (fragment : Option (List Char)) : Except Defect Url :=
  assemble { u.parts with fragment }

/-- Replaces the host; one with colons gets brackets. -/
def withHost (u : Url) (host : List Char) : Except Defect Url :=
  let bracketed := if host.contains ':' && !(host.head? == some '[' && host.getLast? == some ']')
    then '[' :: (host ++ [']']) else host
  assemble { u.parts with host := some bracketed }

/-- An address that does not stand on its own is asked for by its target alone. -/
def asRequested (u : Url) : Except Defect Url :=
  if u.isAbsolute then .ok u
  else
    let target := '/' :: u.target.dropWhile (· == '/')
    let (path, rest) := target.span (· != '?')
    assemble { scheme := [], authority := [], path,
               query := if rest.isEmpty then none else some (rest.drop 1), fragment := none }

end Admission.Url
