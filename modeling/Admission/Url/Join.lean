import Admission.Url.Reader

/-!
Resolving a reference against a base address. The path of the reference replaces the last segment of
the base path, or the whole of it if it begins with a slash; a reference without a path keeps the
path of the base, and without a query also its query.
-/

set_option autoImplicit false
set_option relaxedAutoImplicit false

namespace Admission.Url

/-- The parts of a reference as resolution sees them; parameters follow the first semicolon of the
last segment. Empty and missing parts are the same. -/
structure Reference where
  scheme : List Char
  authority : List Char
  path : List Char
  params : List Char
  query : List Char
  fragment : List Char

namespace Reference

/-- Schemes whose references may be relative. -/
def relativeSchemes : List String :=
  ["", "ftp", "http", "gopher", "nntp", "imap", "wais", "file", "https", "shttp", "mms",
    "prospero", "rtsp", "rtsps", "rtspu", "sftp", "svn", "svn+ssh", "ws", "wss"]

/-- Schemes with a network location. -/
def locatedSchemes : List String :=
  ["", "ftp", "http", "gopher", "nntp", "telnet", "imap", "wais", "file", "mms", "https", "shttp",
    "snews", "prospero", "rtsp", "rtsps", "rtspu", "rsync", "svn", "svn+ssh", "sftp", "nfs", "git",
    "git+ssh", "ws", "wss"]

/-- Schemes whose paths have parameters. -/
def parameterSchemes : List String :=
  ["", "ftp", "hdl", "prospero", "http", "imap", "https", "shttp", "rtsp", "rtsps", "rtspu", "sip",
    "sips", "mms", "sftp", "tel"]

def isOneOf (schemes : List String) (scheme : List Char) : Bool :=
  schemes.contains (String.ofList scheme)

/-- The scheme in front of the first colon, which here must not be empty. -/
def cutScheme (fallback cs : List Char) : List Char × List Char :=
  let (name, rest) := cs.span (· != ':')
  if rest.isEmpty || !(name.head?.map isSchemeStart).getD false || !name.all isSchemeChar then
    (fallback, cs)
  else (Text.lowerChars name, rest.drop 1)

/-- What stands behind the first occurrence of a mark, and the text without it. -/
def cutBehind (mark : Char) (cs : List Char) : List Char × List Char :=
  let (front, rest) := cs.span (· != mark)
  (front, rest.drop 1)

/-- Splits the parameters off the last segment of a path. -/
def cutParams (path : List Char) : List Char × List Char :=
  let last := (path.reverse.takeWhile (· != '/')).reverse
  let before := path.take (path.length - last.length)
  let (segment, params) := cutBehind ';' last
  (before ++ segment, params)

/-- The parts of a text, whose scheme may be given by another. -/
def ofChars (fallback cs : List Char) : Reference :=
  let (scheme, rest) := cutScheme fallback cs
  let (authority, rest) := cutAuthority rest
  let (rest, fragment) := cutBehind '#' rest
  let (path, query) := cutBehind '?' rest
  let (path, params) := if isOneOf parameterSchemes scheme then cutParams path else (path, [])
  { scheme, authority, path, params, query, fragment }

def chars (r : Reference) : List Char :=
  let path := if r.params.isEmpty then r.path else r.path ++ ';' :: r.params
  let located := !r.authority.isEmpty ||
    (!r.scheme.isEmpty && isOneOf locatedSchemes r.scheme) || path.take 2 == ['/', '/']
  let rooted := if path.isEmpty || path.head? = some '/' then path else '/' :: path
  (if r.scheme.isEmpty then [] else r.scheme ++ [':']) ++
    (if located then '/' :: '/' :: (r.authority ++ rooted) else path) ++
    (if r.query.isEmpty then [] else '?' :: r.query) ++
    (if r.fragment.isEmpty then [] else '#' :: r.fragment)

/-- The segments between the first and the last one, without the empty ones. -/
def withoutEmptyInner (segments : List (List Char)) : List (List Char) :=
  match segments with
  | [] => []
  | first :: rest =>
    match rest.getLast? with
    | none => [first]
    | some last => first :: (rest.dropLast.filter (fun s ↦ !s.isEmpty) ++ [last])

/-- The segments of a path below the base path. -/
def segments (base path : List Char) : List (List Char) :=
  if path.head? = some '/' then path.splitOn '/'
  else
    let parts := base.splitOn '/'
    let parts := if parts.getLast? = some [] then parts else parts.dropLast
    withoutEmptyInner (parts ++ path.splitOn '/')

/-- Adds a segment to those before it, the last one first. -/
def addSegment (done : List (List Char)) (segment : List Char) : List (List Char) :=
  if segment = dotDot then done.tail
  else if segment = dot then done
  else segment :: done

def resolvePath (base path : List Char) : List Char :=
  let all := segments base path
  let done := (all.foldl addSegment []).reverse
  let done := if all.getLast? = some dot || all.getLast? = some dotDot then done ++ [[]] else done
  let joined := ['/'].intercalate done
  if joined.isEmpty then ['/'] else joined

end Reference

/-- The text of a reference, resolved against the text of a base. -/
def resolve (base reference : List Char) : List Char :=
  if base.isEmpty then reference
  else if reference.isEmpty then base
  else
    let b := Reference.ofChars [] base
    let r := Reference.ofChars b.scheme reference
    if r.scheme ≠ b.scheme || !Reference.isOneOf Reference.relativeSchemes r.scheme then reference
    else if Reference.isOneOf Reference.locatedSchemes r.scheme && !r.authority.isEmpty then
      r.chars
    else
      let authority :=
        if Reference.isOneOf Reference.locatedSchemes r.scheme then b.authority else r.authority
      if r.path.isEmpty && r.params.isEmpty then
        { r with
          authority, path := b.path, params := b.params
          query := if r.query.isEmpty then b.query else r.query }.chars
      else { r with authority, path := Reference.resolvePath b.path r.path }.chars

/-- Resolves an address against another. -/
def join (base u : Url) : Except Defect Url :=
  parse (resolve base.chars u.chars)

end Admission.Url
