import Admission.Decision
import Admission.IdToken
import Admission.Login.Preparation
import Admission.Probe.Fanout
import Admission.Profile
import Admission.Settings.Configuration

/-!
A login: the profile is fetched and taken over, the group memberships are probed, and the whitelist
decides. A membership that cannot be settled is surfaced and nothing is decided, though the
confirmed ones stay with the user.
-/

set_option autoImplicit false
set_option relaxedAutoImplicit false

namespace Admission

/-- What a login begins with. -/
structure Visit where
  user : User := {}
  claims : Fields := []
  tokens : Tokens
  /-- The address that the login comes from: none without a request, empty if it is not known. -/
  address : Option String := none

/-- The state of a login at some instant. -/
structure Progress (σ : Type) where
  time : Rat
  state : σ
  user : User
  claims : Fields
  trace : Trace := []
  /-- Clients that were made and closed. -/
  clients : Nat := 0
  problem : Option Problem := none

namespace Progress

variable {σ : Type}

def note (p : Progress σ) (notices : List Notice) : Progress σ :=
  { p with trace := p.trace ++ notices.map fun n ↦ ⟨p.time, .noticed n⟩ }

def count (p : Progress σ) (c : Count) : Progress σ :=
  { p with trace := p.trace ++ [⟨p.time, .counted c⟩] }

def stop (p : Progress σ) (problem : Problem) : Progress σ :=
  { p with problem := some problem }

/-- Goes on unless there was a problem. -/
def andThen (p : Progress σ) (f : Progress σ → Progress σ) : Progress σ :=
  match p.problem with
  | some _ => p
  | none => f p

/-- Runs a process from now on; what it leads to is taken over by the second function. -/
def conduct {α : Type} (responder : Responder σ) (last : Option Rat)
    (process : Process (Except Problem α)) (p : Progress σ) (f : α → Progress σ → Progress σ) :
    Progress σ :=
  let run := process.run responder last p.time p.state
  let p := { p with time := run.ending.time, state := run.state, trace := p.trace ++ run.trace }
  match run.ending with
  | .finished _ (.ok a) => f a p
  | .finished _ (.error problem) => p.stop problem
  | _ => p.stop (.fault .cancelled)

end Progress

/-- How logins at a provider are done: by which kind of provider, with which tokens, and by which
settings if it is pinned to some. -/
structure Handler where
  provider : Provider
  preparer : Preparer := .standard
  pinned : Option Settings := none

/-- The world of a login: the provider's answers, the clock, and the instant at which the call is
given up. -/
structure Surroundings (σ : Type) where
  responder : Responder σ
  state : σ
  clock : Int
  last : Option Rat := none

namespace Login

variable {σ : Type}

/-- Fetches a profile document. -/
def fetchProfile (url : String) (parameter : Option (String × String))
    (authorization : Option String) : Process (Except Problem Fields) :=
  match Request.make url parameter authorization with
  | .error f => .faulty f
  | .ok request => .ask request fun answer ↦
    match request.receive answer with
    | .error f => .faulty f
    | .ok (.broken reason) => .fail (.profileUnreachable url reason)
    | .ok (.response r) =>
      if r.status ≠ 200 then .fail (.unexpectedStatus r.status url "")
      else
        .done (Profile.parse r.body)

/-- Takes over the claims of a profile and the user that it describes. -/
def takeOver (mapper : Fields → User → Profile.Mapped) (payload : Fields) (p : Progress σ) :
    Progress σ :=
  let mapped := mapper payload p.user
  let p := { p with claims := Entries.update p.claims payload, user := mapped.user }
  let p := p.note mapped.notices
  match mapped.problem with
  | some problem => p.stop problem
  | none => p

/-- The user with the confirmed memberships among some answers. -/
def grant (user : User) (results : List Membership) : User :=
  (Membership.facts results).foldl (fun u fact ↦ if fact.2 then u.addMembership fact.1 else u) user

/-- The first answer that is a failure, as a failure of the login. -/
def firstFailure? (results : List Membership) : Option Failure :=
  results.findSome? fun m ↦ m.error?.map (.indeterminate m.entry)

/-- Takes over the answers of the probes. -/
def settleMemberships (results : List Membership) (p : Progress σ) : Progress σ :=
  let p := { p with user := grant p.user results }
  match firstFailure? results with
  | some failure => p.stop (.failure failure)
  | none => p.note [.resolved p.user.username p.user.memberships]

/-- Probes the entries of the team whitelist. -/
def probeTeams (responder : Responder σ) (settings : Settings) (token : Tokens)
    (last : Option Rat) (p : Progress σ) : Progress σ :=
  let fan := Probe.fanOut responder settings p.user token last p.time p.state
  let p := { p with time := fan.time, state := fan.state, trace := p.trace ++ fan.trace }
  match fan.outcome with
  | .answers results => settleMemberships results p
  | .faulty f => p.stop (.fault f)
  | _ => p.stop (.fault .cancelled)

/-- Describes the user by the profile and the memberships. -/
def describeGithub (responder : Responder σ) (settings : Settings) (last : Option Rat)
    (token : Tokens) (p : Progress σ) : Progress σ :=
  (p.conduct responder last
    (fetchProfile settings.provider.userInfoUrl (some (Probe.tokenParameter, token.access)) none)
    (takeOver Profile.mapGithub)).andThen
    (probeTeams responder settings token last)

/-- Takes over the claims of an identity token, if there is one. -/
def takeIdToken (token : Tokens) (p : Progress σ) : Progress σ :=
  match token.identity with
  | none => p
  | some text =>
    if text.isEmpty then p
    else
      match IdToken.claims text with
      | .ok (some claims) => { p with claims := Entries.update p.claims claims }
      | .ok none => p.stop (.failure .malformedIdToken)
      | .error f => p.stop (.fault f)

/-- Describes the user by the identity token and the profile. -/
def describeOpenId (responder : Responder σ) (settings : Settings) (last : Option Rat)
    (token : Tokens) (p : Progress σ) : Progress σ :=
  ((takeIdToken token p).andThen fun p ↦
    p.conduct responder last
      (fetchProfile settings.provider.userInfoUrl none (some ("Bearer " ++ token.access)))
      (takeOver Profile.mapOpenId)).andThen fun p ↦
    if settings.whitelist.teams.isEmpty then p else p.note [.teamsIgnored p.user.username]

/-- Describes the user of a visit. -/
def describe (world : Surroundings σ) (handler : Handler) (settings : Settings) (visit : Visit) :
    Progress σ :=
  let p : Progress σ :=
    { time := 0, state := world.state, user := visit.user, claims := visit.claims }
  match handler.preparer.prepare world.clock visit.address visit.tokens with
  | .error problem => p.stop problem
  | .ok (token, notices) =>
    let p := { p with clients := 1 }.note notices
    match handler.provider with
    | .github => describeGithub world.responder settings world.last token p
    | .oidc => describeOpenId world.responder settings world.last token p

/-- Surfaces a membership that could not be settled. -/
def surface (p : Progress σ) : Progress σ :=
  match p.problem with
  | some (.failure (.indeterminate entry cause)) =>
    (p.count (.decision "indeterminate")).note
      [.indeterminate (.indeterminate entry cause) p.user.username entry]
  | _ => p

/-- Which entries of the whitelist the user is known to belong to. -/
def knownFacts (settings : Settings) (user : User) : List (String × Bool) :=
  settings.whitelist.teams.map fun entry ↦ (entry, user.memberships.contains entry)

/-- Decides about a described user. -/
def decide (settings : Settings) (p : Progress σ) : Decision × Progress σ :=
  let decision := evaluate p.user settings.whitelist (knownFacts settings p.user)
  let p := p.count (.decision (if decision.allowed then "allowed" else "denied"))
  (decision, p.note [.decided decision.allowed p.user.username decision.reason])

/-- Describes the user of a visit and decides whether they may pass. The same settings are used for
both. -/
def authorize (world : Surroundings σ) (handler : Handler) (settings : Settings) (visit : Visit) :
    Except Problem Decision × Progress σ :=
  let p := describe world handler settings visit
  match p.problem with
  | some problem => (.error problem, surface p)
  | none =>
    let (decision, p) := decide settings p
    (.ok decision, p)

end Login

end Admission
