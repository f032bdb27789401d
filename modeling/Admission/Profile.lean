import Admission.Notice
import Admission.Json.Reader
import Admission.User

/-!
Profiles: documents in which an identity provider describes a user. Fields that are missing or
malformed count as empty or zero, except for those that name the user.
-/

set_option autoImplicit false
set_option relaxedAutoImplicit false

namespace Admission.Profile

/-- The fields of a document that was read. -/
def ofRead : Except Json.Refusal Value → Except Problem Fields
  | .ok (.map fields) => .ok fields
  | .ok _ => .error (.failure .profileNotObject)
  | .error .loneHalf => .error (.fault .loneHalf)
  | .error _ => .error (.failure .profileNotJson)

def parse (octets : List UInt8) : Except Problem Fields :=
  ofRead (Json.readOctets octets)

def parseText (s : String) : Except Problem Fields :=
  ofRead (Json.readChars s.toList)

/-- A field's value, null if it is missing. -/
def value (payload : Fields) (key : String) : Value :=
  Value.ofOption (payload.get? key)

/-- A text without the blanks around it; anything else counts as empty. -/
def text (payload : Fields) (key : String) : String :=
  match value payload key with
  | .str s => Text.trim s
  | _ => ""

/-- The number that a text of ASCII digits denotes; other texts denote none. -/
def digits? (s : String) : Except Fault (Option Int) :=
  let cs := Text.trimChars s.toList
  if cs.isEmpty || !cs.all Numeral.isDigit then .ok none
  else if Numeral.digitLimit < cs.length then .error (.numeralTooLong cs.length)
  else .ok (some (Numeral.ofDigits cs))

/-- Notices given while a value was looked for, and the value. -/
abbrev Found (α : Type) := List Notice × Except Fault α

/-- The text of a value in a notice. -/
def shown (v : Value) : String :=
  v.code?.getD ""

/-- A whole number, or the digits of one; zero is also what a truth value counts as. -/
def integer (payload : Fields) (key : String) : Found Int :=
  match value payload key with
  | .null => ([], .ok 0)
  | .bool _ => ([], .ok 0)
  | .int n => ([], .ok n)
  | .str s =>
    match digits? s with
    | .ok (some n) => ([], .ok n)
    | .ok none => ([.malformedField key (shown (.str s))], .ok 0)
    | .error f => ([], .error f)
  | v => ([.malformedField key (shown v)], .ok 0)

/-- A text without the blanks around it, the letter for universal time being spelled out. -/
def zoned (s : String) : String :=
  String.ofList ((Text.trimChars s.toList).flatMap fun c ↦
    if c = 'Z' then "+00:00".toList else [c])

/-- What one field says about a time: seconds since the beginning of 1970, or nothing. -/
def seconds (key : String) : Value → Found (Option Int)
  | .int n => ([], .ok (some n))
  | .float x =>
    match x.truncate? with
    | some n => ([], .ok (some n))
    | none => ([.nonFiniteTimestamp key (shown (.float x))], .ok none)
  | .str s =>
    match digits? s with
    | .error f => ([], .error f)
    | .ok (some n) => ([], .ok (some n))
    | .ok none =>
      match (Timestamp.seconds? (zoned s)).bind Binary64.truncate? with
      | some n => ([], .ok (some n))
      | none => ([.malformedTimestamp key (shown (.str s))], .ok none)
  | _ => ([], .ok none)

/-- The first usable time among the fields with the given names. -/
def epoch (payload : Fields) : List String → Found Int
  | [] => ([], .ok 0)
  | key :: keys =>
    match seconds key (value payload key) with
    | (notices, .error f) => (notices, .error f)
    | (notices, .ok (some n)) => (notices, .ok n)
    | (notices, .ok none) =>
      let more := epoch payload keys
      (notices ++ more.1, more.2)

/-- A user while fields are taken over, up to the first problem. -/
structure Mapped where
  user : User
  notices : List Notice := []
  problem : Option Problem := none

/-- Takes a number over, unless there was a problem before. -/
def Mapped.put (m : Mapped) (set : User → Int → User) (found : Found Int) : Mapped :=
  match m.problem with
  | some _ => m
  | none =>
    match found with
    | (notices, .ok n) => { m with user := set m.user n, notices := m.notices ++ notices }
    | (notices, .error f) => { m with notices := m.notices ++ notices, problem := some (.fault f) }

def setId (user : User) (n : Int) : User := { user with id := n }
def setCreatedOn (user : User) (n : Int) : User := { user with createdOn := n }
def setLastUpdate (user : User) (n : Int) : User := { user with lastUpdate := n }

/-- Takes over a profile whose `login` names the user. -/
def mapGithub (payload : Fields) (user : User) : Mapped :=
  let login := text payload "login"
  if login.isEmpty then { user, problem := some (.failure .loginMissing) }
  else
    let named := { user with
      username := login, email := text payload "email", name := text payload "name" }
    let m : Mapped := { user := named }
    ((m.put setId (integer payload "id")).put setCreatedOn
      (epoch payload ["createdon", "created_at"])).put setLastUpdate
      (epoch payload ["lastupdate", "updated_at"])

/-- The first text that is not empty. -/
def firstOf (a b c : String) : String :=
  if !a.isEmpty then a else if !b.isEmpty then b else c

/-- Takes over a profile in which the user is named by one of three claims. -/
def mapOpenId (payload : Fields) (user : User) : Mapped :=
  let email := text payload "email"
  let user := { user with email, name := text payload "name" }
  let username := firstOf (text payload "preferred_username") email (text payload "sub")
  if username.isEmpty then { user, problem := some (.failure .identityMissing) }
  else
    let m : Mapped := { user := { user with username } }
    ((m.put setId (integer payload "id")).put setCreatedOn
      (epoch payload ["created_at"])).put setLastUpdate (epoch payload ["updated_at"])

end Admission.Profile
