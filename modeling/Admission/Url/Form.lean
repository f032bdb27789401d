import Admission.Url.Reader

/-!
Queries as lists of named values. In the text a plus sign stands for a blank, pairs are separated by
ampersands, and the first equals sign of a pair ends the name.
-/

set_option autoImplicit false
set_option relaxedAutoImplicit false

namespace Admission.Url.Form

/-- Values by name; a name has all its values, and stands where it first came. -/
abbrev Pairs := List (List Char × List (List Char))

def encodeChar (c : Char) : List Char :=
  if c = ' ' then ['+'] else Text.percentChar Text.isUnreserved c

def encodeText (cs : List Char) : List Char :=
  cs.flatMap encodeChar

def decodeText (cs : List Char) : List Char :=
  Text.percentDecode (cs.map fun c ↦ if c = '+' then ' ' else c)

/-- Name and value of a pair; a pair without an equals sign has an empty value. -/
def decodePair (cs : List Char) : List Char × List Char :=
  let (name, rest) := cs.span (· != '=')
  (decodeText name, decodeText (rest.drop 1))

def add (pairs : Pairs) (name value : List Char) : Pairs :=
  match pairs with
  | [] => [(name, [value])]
  | (n, values) :: rest =>
    if n = name then (n, values ++ [value]) :: rest else (n, values) :: add rest name value

def decode (query : List Char) : Pairs :=
  (((query.splitOn '&').filter fun p ↦ !p.isEmpty).map decodePair).foldl
    (fun pairs p ↦ add pairs p.1 p.2) []

def encodePair (name value : List Char) : List Char :=
  encodeText name ++ '=' :: encodeText value

def encode (pairs : Pairs) : List Char :=
  ['&'].intercalate (pairs.flatMap fun p ↦ p.2.map (encodePair p.1))

/-- Removes a name with all its values. -/
def remove (pairs : Pairs) (name : List Char) : Pairs :=
  pairs.filter fun p ↦ p.1 != name

end Admission.Url.Form

namespace Admission.Url

/-- The address without the query pairs of a name; the other pairs are encoded anew. -/
def withoutParameter (u : Url) (name : List Char) : Except Defect Url :=
  let pairs := Form.remove (Form.decode (u.query.getD [])) name
  u.withQuery (if pairs.isEmpty then none else some (Form.encode pairs))

/-- The address with a single pair as its query. -/
def withParameter (u : Url) (name value : List Char) : Except Defect Url :=
  u.withQuery (some (Form.encodePair name value))

end Admission.Url
