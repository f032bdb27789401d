import Admission.Text.Case
import Admission.Url.Basic

/-!
Hosts: four octets in decimal, eight groups in hexadecimal inside brackets, or a name. A text of
digit runs that any characters separate counts as a try at the first form. Names with characters
outside ASCII have a form in ASCII by tables that are not given here; they are told apart from all
other hosts.
-/

set_option autoImplicit false
set_option relaxedAutoImplicit false

namespace Admission.Url

def isDigit (c : Char) : Bool :=
  '0' ≤ c && c ≤ '9'

/-- The text consists of digit runs with so many single characters between them. -/
def isDigitRuns : Nat → List Char → Bool
  | _, [] => false
  | 0, cs => cs.all isDigit
  | _ + 1, [_] => false
  | gaps + 1, c :: d :: rest =>
    isDigit c && (isDigitRuns gaps rest || isDigitRuns (gaps + 1) (d :: rest))

/-- A number up to 255 in at most three digits, without a leading zero. -/
def isByte (cs : List Char) : Bool :=
  !cs.isEmpty && cs.all isDigit && cs.length ≤ 3 && (cs.head? != some '0' || cs.length == 1) &&
    cs.foldl (fun n c ↦ n * 10 + (c.toNat - 48)) 0 ≤ 255

def isAddress4 (cs : List Char) : Bool :=
  let bytes := cs.splitOn '.'
  bytes.length == 4 && bytes.all isByte

def isGroup (cs : List Char) : Bool :=
  !cs.isEmpty && cs.length ≤ 4 && cs.all fun c ↦ (Text.hexValue? c).isSome

/-- Four octets in decimal may stand for the last two groups. -/
def unfoldLast? (groups : List (List Char)) : Option (List (List Char)) :=
  match groups.getLast? with
  | none => none
  | some last =>
    if last.contains '.' then
      if isAddress4 last then some (groups.dropLast ++ [['0'], ['0']]) else none
    else some groups

/-- The groups on one side of the gap: an empty one is allowed only alone, at the very end. -/
def sideLength? (groups : List (List Char)) (outermost : Option (List Char)) : Option Nat :=
  if outermost = some [] then
    if groups.length = 1 then some 0 else none
  else if groups.all isGroup then some groups.length
  else none

/-- Eight groups, or fewer around one gap of empty ones. -/
def isGroups (groups : List (List Char)) : Bool :=
  if groups.length < 3 || 9 < groups.length then false
  else
    let inner := (groups.drop 1).dropLast
    match inner.findIdx? List.isEmpty with
    | none => groups.length == 8 && groups.all isGroup
    | some i =>
      let front := groups.take (i + 1)
      let back := groups.drop (i + 2)
      if (inner.drop (i + 1)).any List.isEmpty then false
      else
        match sideLength? front front.head?, sideLength? back back.getLast? with
        | some m, some n => m + n < 8
        | _, _ => false

/-- Groups and an optional zone, which a percent sign introduces. -/
def isAddress6 (cs : List Char) : Bool :=
  let (address, zone) := cs.span (· != '%')
  let zoneOk := match zone with
    | [] => true
    | _ :: zone => !zone.isEmpty && !zone.contains '%'
  if cs.contains '/' || !zoneOk || address.isEmpty then false
  else
    let groups := address.splitOn ':'
    3 ≤ groups.length &&
      match unfoldLast? groups with
      | some groups => isGroups groups
      | none => false

def isBracketed (cs : List Char) : Bool :=
  cs.head? == some '[' && cs.getLast? == some ']' && 2 ≤ cs.length

/-- The characters that need no encoding in a host name. -/
def keepsInHost (c : Char) : Bool :=
  Text.isUnreserved c || "!$&'()*+,;=\"`%|\\\x7b\x7d".toList.contains c

/-- The normal form of a host; brackets are dropped and names are in lower case. -/
def normalHost (host : List Char) : Except Defect (List Char) :=
  if host.isEmpty then .ok []
  else if isDigitRuns 3 host then
    if isAddress4 host then .ok host else .error (.badAddress4 host)
  else if isBracketed host then
    let inner := (host.drop 1).dropLast
    if isAddress6 inner then .ok inner else .error (.badAddress6 host)
  else if host.all fun c ↦ c.toNat < 128 then
    .ok (Text.percentEncode keepsInHost (Text.lowerChars host))
  else .error (.international host)

end Admission.Url
