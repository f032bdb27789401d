import Admission.Exchange.Query
import Admission.Json.Reader
import Admission.User

/-!
Asking a provider about one user and one group. A provider that may not tell about an organization
redirects to its public members; they are asked for once and without the access token. Teams answer
with a document in which only one state counts.
-/

set_option autoImplicit false
set_option relaxedAutoImplicit false

namespace Admission.Probe

/-- A value written as one segment of a path. -/
def segment (s : String) : List Char :=
  Text.percentEncode Text.isUnreserved s.toList

/-- The address for some names, by a template with their fields. -/
def address (template : String) (values : List (String × String)) : Except Fault String :=
  match Template.fill (values.map fun v ↦ (v.1.toList, segment v.2)) template.toList with
  | .ok cs => .ok (String.ofList cs)
  | .error d => .error (.template d)

/-- The parameter that carries the access token. -/
def tokenParameter : String := "access_token"

/-- What a team says about a member. -/
structure TeamMembership where
  state : Option String
  role : Option String
  deriving DecidableEq

namespace TeamMembership

/-- Only an accepted membership counts. -/
def isActive (m : TeamMembership) : Bool :=
  m.state = some "active"

/-- A text or null under a name; a missing one counts as null. -/
def textOrNull? (fields : Fields) (key : String) : Option (Option String) :=
  match fields.get? key with
  | none => some none
  | some .null => some none
  | some (.str s) => some (some s)
  | some _ => none

/-- Reads the document of a team, which is always in UTF-8. -/
def read? (octets : List UInt8) : Option TeamMembership := do
  match Json.readChars (← Text.decodeUtf8 octets) with
  | .ok (.map fields) =>
    return { state := ← textOrNull? fields "state", role := ← textOrNull? fields "role" }
  | _ => none

end TeamMembership

/-- Reads the final response about an organization. -/
def readOrganization (username org url : String) (r : Response) :
    Process (Except Problem Bool) :=
  if r.isConfirmation then .notice (.inOrganization username org) (.done (.ok true))
  else if r.status = 404 then .notice (.notInOrganization username org) (.done (.ok false))
  else .notice (.organizationStatus r.status) (.fail (.unexpectedStatus r.status url ""))

/-- The address that a redirect leads to, without the access token. -/
def publicAddress (asked : Url) (target : String) : Except Url.Defect Url := do
  (← asked.join (← Url.parse target.toList)).withoutParameter tokenParameter.toList

/-- Follows a redirect to the public members. -/
def askPublicly (settings : ProviderSettings) (username org url : String) (reply : Query.Reply) :
    Process (Except Problem Bool) :=
  match reply.response.location? with
  | none => .fail (.redirectWithoutTarget reply.response.status url)
  | some target =>
    if target.isEmpty then .fail (.redirectWithoutTarget reply.response.status url)
    else
      match publicAddress reply.url target with
      | .error d => .faulty (.address d)
      | .ok u =>
        .notice (.askingPublicly u.text)
          ((Query.get settings u.text none).andThen fun reply ↦
            readOrganization username org u.text reply.response)

/-- Whether the user belongs to an organization. -/
def askOrganization (settings : ProviderSettings) (user : User) (token : Tokens) (org : String) :
    Process (Except Problem Bool) :=
  match address settings.userOrgUrl [("org", org), ("username", user.username)] with
  | .error f => .faulty f
  | .ok url =>
    (Query.get settings url (some (tokenParameter, token.access))).andThen fun reply ↦
      if reply.response.isRedirect then askPublicly settings user.username org url reply
      else readOrganization user.username org url reply.response

/-- Reads the response about a team. -/
def readTeam (username org team url : String) (r : Response) : Process (Except Problem Bool) :=
  if r.status = 200 then
    match TeamMembership.read? r.body with
    | none => .fail (.unreadableMembership url)
    | some m => .notice (.teamState username org team m.state) (.done (.ok m.isActive))
  else if r.status = 404 then .done (.ok false)
  else .notice (.teamStatus r.status) (.fail (.unexpectedStatus r.status url ""))

/-- Whether the user is an active member of a team. -/
def askTeam (settings : ProviderSettings) (user : User) (token : Tokens) (org team : String) :
    Process (Except Problem Bool) :=
  match address settings.userTeamUrl
      [("org", org), ("team", team), ("username", user.username)] with
  | .error f => .faulty f
  | .ok url =>
    (Query.get settings url (some (tokenParameter, token.access))).andThen fun reply ↦
      readTeam user.username org team url reply.response

/-- Whether the user belongs to a group. -/
def ask (settings : ProviderSettings) (user : User) (token : Tokens) :
    Group → Process (Except Problem Bool)
  | .organization org => askOrganization settings user token org
  | .team org name => askTeam settings user token org name

/-- The waits of a question: two queries at most. -/
def waits (settings : ProviderSettings) : Nat :=
  Query.waits settings + Query.waits settings

section Obeys

variable {sends : Request → Prop} {pauses : Binary64 → Prop} {settings : ProviderSettings}

theorem readOrganization_obeys (username org url : String) (r : Response) :
    (readOrganization username org url r).Obeys sends pauses 0 := by
  unfold readOrganization
  split
  · exact .notice _ (.done _ 0)
  · split <;> exact .notice _ (.done _ 0)

theorem readTeam_obeys (username org team url : String) (r : Response) :
    (readTeam username org team url r).Obeys sends pauses 0 := by
  unfold readTeam
  split
  · split
    · exact .done _ 0
    · exact .notice _ (.done _ 0)
  · split
    · exact .done _ 0
    · exact .notice _ (.done _ 0)

/-- A redirect leads to one query at most, for the address without the access token. -/
theorem askPublicly_obeys {username org url : String} {reply : Query.Reply}
    (hsends : ∀ target u request, publicAddress reply.url target = .ok u →
      Request.make u.text none none = .ok request → sends request)
    (hpauses : ∀ url asked attempt received n seconds,
      Query.step settings url asked attempt received = .again n seconds → pauses seconds) :
    (askPublicly settings username org url reply).Obeys sends pauses (Query.waits settings) := by
  unfold askPublicly
  split
  · exact .done _ _
  · split
    · exact .done _ _
    · split
      · exact .done _ _
      · rename_i target _ _ _ u haddress
        exact .notice _ (.andThen (n := 0)
          (Query.get_obeys (fun request ↦ hsends target u request haddress) (hpauses _))
          fun _ ↦ readOrganization_obeys ..)

/-- A question sends requests of any kind, and pauses only between the attempts of its queries. -/
theorem ask_obeys (user : User) (token : Tokens) (group : Group)
    (hpauses : ∀ url asked attempt received n seconds,
      Query.step settings url asked attempt received = .again n seconds → pauses seconds) :
    (ask settings user token group).Obeys (fun _ ↦ True) pauses (waits settings) := by
  have hget (url : String) (parameter : Option (String × String)) :
      (Query.get settings url parameter).Obeys (fun _ ↦ True) pauses (Query.waits settings) :=
    Query.get_obeys (fun _ _ ↦ trivial) (hpauses url)
  cases group with
  | organization org =>
    unfold ask askOrganization
    dsimp only
    split
    · exact .done _ _
    · refine .andThen (hget _ _) fun reply ↦ ?_
      split
      · exact askPublicly_obeys (fun _ _ _ _ _ ↦ trivial) hpauses
      · exact (readOrganization_obeys ..).mono (Nat.zero_le _)
  | team org name =>
    unfold ask askTeam
    dsimp only
    split
    · exact .done _ _
    · exact .andThen (hget _ _) fun reply ↦ (readTeam_obeys ..).mono (Nat.zero_le _)

theorem ask_waitsAtMost (user : User) (token : Tokens) (group : Group) :
    (ask settings user token group).WaitsAtMost (waits settings) :=
  ask_obeys user token group fun _ _ _ _ _ _ _ ↦ trivial

end Obeys

end Admission.Probe
