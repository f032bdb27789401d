import Admission.Login.Basic
import Admission.Proofs.Memberships
import Admission.Proofs.Probe.Completion

/-!
# The stages of a login

A login that has its tokens takes a profile over and then settles the memberships. `describe_eq`
puts it together from `afterProfile`, what it is when the profile was taken over or something went
wrong before, and `settle`, in which only one kind of provider probes. `probes` and `answers` are
the ends of the probes of a login and the answers made of them; a login that probes nothing has
none.

What a login makes of a record is said once, for all records: `Takes` does so for a profile that is
taken over and `Introduces` for a login up to there. Without a problem everything but the
memberships is overwritten, and the problem never depends on the record. `user_describe` says what
the probes add.
-/

set_option autoImplicit false
set_option relaxedAutoImplicit false

namespace Admission

namespace Profile

/-! ### Taking over a profile -/

/-- What taking over a profile makes of a record: if it is accepted, everything but the memberships
is what the profile describes; if it is not, notices and problem still do not depend on the record,
and the memberships stay. -/
inductive Takes (map : User → Mapped) : Prop
  | accepts (notices : List Notice) (described : User) (hnamed : described.username ≠ "")
    (h : ∀ user, map user =
      { user := { described with memberships := user.memberships }, notices })
  | rejects (notices : List Notice) (problem : Problem)
    (h : ∀ user, ∃ described : User, map user =
      { user := { described with memberships := user.memberships }, notices
        problem := some problem })

/-- Numbers that are put in one after the other all replace those of the record, unless one of them
is a fault. -/
theorem takes_numbers (user : User) (hnamed : user.username ≠ "") (texts : User → User)
    (htexts : ∀ v, texts v = { v with
      username := user.username, email := user.email, name := user.name })
    (id createdOn lastUpdate : Found Int) :
    Takes fun v ↦ ((Mapped.put { user := texts v } setId id).put setCreatedOn createdOn).put
      setLastUpdate lastUpdate := by
  simp only [htexts]
  obtain ⟨first, f | n⟩ := id
  · exact .rejects first (.fault f) fun v ↦ ⟨{ v with
      username := user.username, email := user.email, name := user.name }, rfl⟩
  · obtain ⟨second, f | m⟩ := createdOn
    · exact .rejects (first ++ second) (.fault f) fun v ↦ ⟨{ v with
        username := user.username, email := user.email, name := user.name, id := n }, rfl⟩
    · obtain ⟨third, f | k⟩ := lastUpdate
      · exact .rejects (first ++ second ++ third) (.fault f) fun v ↦ ⟨{ v with
          username := user.username, email := user.email, name := user.name
          id := n, createdOn := m }, rfl⟩
      · exact .accepts (first ++ second ++ third)
          { user with id := n, createdOn := m, lastUpdate := k } hnamed fun v ↦ rfl

theorem takes_mapGithub (payload : Fields) : Takes (mapGithub payload) := by
  by_cases hlogin : (text payload "login").isEmpty = true
  · refine .rejects [] (.failure .loginMissing) fun v ↦ ⟨v, ?_⟩
    simp only [mapGithub, hlogin, if_true]
  · have hmap : mapGithub payload = fun v ↦ ((Mapped.put { user := { v with
          username := text payload "login", email := text payload "email"
          name := text payload "name" } } setId (integer payload "id")).put setCreatedOn
        (epoch payload ["createdon", "created_at"])).put setLastUpdate
        (epoch payload ["lastupdate", "updated_at"]) := by
      funext v
      simp only [mapGithub, hlogin, Bool.false_eq_true, if_false]
    rw [hmap]
    let user : User := { username := text payload "login", email := text payload "email"
                         name := text payload "name" }
    exact takes_numbers user (by simpa [user] using hlogin) _ (fun v ↦ rfl) _ _ _

theorem takes_mapOpenId (payload : Fields) : Takes (mapOpenId payload) := by
  let username := firstOf (text payload "preferred_username") (text payload "email")
    (text payload "sub")
  by_cases hname : username.isEmpty = true
  · refine .rejects [] (.failure .identityMissing) fun v ↦
      ⟨{ v with email := text payload "email", name := text payload "name" }, ?_⟩
    simp only [mapOpenId, show (firstOf (text payload "preferred_username") (text payload "email")
      (text payload "sub")).isEmpty = true from hname, if_true]
  · have hmap : mapOpenId payload = fun v ↦ ((Mapped.put { user := { v with
          username, email := text payload "email", name := text payload "name" } } setId
        (integer payload "id")).put setCreatedOn (epoch payload ["created_at"])).put
        setLastUpdate (epoch payload ["updated_at"]) := by
      funext v
      simp only [mapOpenId, show ¬(firstOf (text payload "preferred_username")
        (text payload "email") (text payload "sub")).isEmpty = true from hname,
        Bool.false_eq_true, if_false]
      rfl
    rw [hmap]
    let user : User := { username, email := text payload "email", name := text payload "name" }
    exact takes_numbers user (by simpa [user] using hname) _ (fun v ↦ rfl) _ _ _

end Profile

namespace Login

variable {σ : Type}

/-! ### The stages -/

section Stages

variable (world : Surroundings σ) (handler : Handler) (settings : Settings) (visit : Visit)

/-- The login once a profile was taken over, or as it was when something went wrong before. -/
def introduce (token : Tokens) (p : Progress σ) : Progress σ :=
  match handler.provider with
  | .github => p.conduct world.responder world.last
      (fetchProfile settings.provider.userInfoUrl (some (Probe.tokenParameter, token.access)) none)
      (takeOver Profile.mapGithub)
  | .oidc => (takeIdToken token p).andThen fun p ↦
      p.conduct world.responder world.last
        (fetchProfile settings.provider.userInfoUrl none (some ("Bearer " ++ token.access)))
        (takeOver Profile.mapOpenId)

/-- The login once the memberships are settled, if the provider is one that settles them. -/
def settle (token : Tokens) (p : Progress σ) : Progress σ :=
  match handler.provider with
  | .github => probeTeams world.responder settings token world.last p
  | .oidc => if settings.whitelist.teams.isEmpty then p else p.note [.teamsIgnored p.user.username]

/-- The tokens that a login uses. -/
def usedTokens : Tokens :=
  match handler.preparer.prepare world.clock visit.address visit.tokens with
  | .ok (token, _) => token
  | .error _ => visit.tokens

/-- The login of a visit up to its profile. -/
def afterProfile : Progress σ :=
  let p : Progress σ :=
    { time := 0, state := world.state, user := visit.user, claims := visit.claims }
  match handler.preparer.prepare world.clock visit.address visit.tokens with
  | .error problem => p.stop problem
  | .ok (token, notices) =>
    introduce world handler settings token ({ p with clients := 1 }.note notices)

/-- The ends of the probes of a login when it settled the memberships. -/
def probes : List (Ended (Except Fault Membership)) :=
  let p := afterProfile world handler settings visit
  match handler.provider, p.problem with
  | .github, none => (Probe.halted world.responder settings p.user (usedTokens world handler visit)
      p.time p.state world.last).1.ended
  | _, _ => []

/-- The answers that a login made of its probes. -/
def answers : List Membership :=
  let p := afterProfile world handler settings visit
  match handler.provider, p.problem with
  | .github, none =>
    match (Probe.fanOut world.responder settings p.user (usedTokens world handler visit)
      world.last p.time p.state).outcome with
    | .answers results => results
    | _ => []
  | _, _ => []

/-- A login takes a profile over and settles the memberships after that. -/
theorem describe_eq : describe world handler settings visit =
    (afterProfile world handler settings visit).andThen
      (settle world handler settings (usedTokens world handler visit)) := by
  unfold describe afterProfile usedTokens
  rcases handler.preparer.prepare world.clock visit.address visit.tokens with
    problem | ⟨token, notices⟩
  · rfl
  · unfold introduce settle
    cases handler.provider <;> rfl

end Stages

/-! ### Up to the profile -/

/-- What a login makes of a record by taking over a profile: if there is no problem, everything but
the memberships is what the profile describes; if there is one, it does not depend on the record,
and the memberships stay. -/
inductive Introduces (login : User → Progress σ) : Prop
  | accepts (q : Progress σ) (hproblem : q.problem = none) (hnamed : q.user.username ≠ "")
    (h : ∀ user, login user =
      { q with user := { q.user with memberships := user.memberships } })
  | rejects (q : Progress σ) (problem : Problem) (hproblem : q.problem = some problem)
    (h : ∀ user, ∃ described : User, login user =
      { q with user := { described with memberships := user.memberships } })

theorem introduces_takeOver {mapper : Fields → User → Profile.Mapped} (payload : Fields)
    (hmapper : Profile.Takes (mapper payload)) (p : Progress σ) (hp : p.problem = none) :
    Introduces fun user ↦ takeOver mapper payload { p with user } := by
  cases hmapper with
  | accepts notices described hnamed h =>
    refine .accepts ({ p with
      claims := Entries.update p.claims payload, user := described }.note notices) hp hnamed
        fun user ↦ ?_
    simp only [takeOver, h]
    rfl
  | rejects notices problem h =>
    refine .rejects (({ p with
      claims := Entries.update p.claims payload }.note notices).stop problem) problem rfl
        fun user ↦ ?_
    obtain ⟨described, hmapped⟩ := h user
    refine ⟨described, ?_⟩
    simp only [takeOver, hmapped]
    rfl

theorem introduces_conduct {mapper : Fields → User → Profile.Mapped}
    (hmapper : ∀ payload, Profile.Takes (mapper payload)) (responder : Responder σ)
    (last : Option Rat) (process : Process (Except Problem Fields)) (p : Progress σ)
    (hp : p.problem = none) :
    Introduces fun user ↦ { p with user }.conduct responder last process (takeOver mapper) := by
  unfold Progress.conduct
  dsimp only
  rcases process.run responder last p.time p.state with ⟨trace, state, ending⟩
  dsimp only
  split
  · rename_i payload
    exact introduces_takeOver payload (hmapper payload)
      { p with time := _, state, trace := p.trace ++ trace } hp
  · rename_i problem
    exact .rejects ({ p with time := _, state, trace := p.trace ++ trace }.stop problem) problem
      rfl fun user ↦ ⟨user, rfl⟩
  · exact .rejects ({ p with time := _, state, trace := p.trace ++ trace }.stop (.fault .cancelled))
      (.fault .cancelled) rfl fun user ↦ ⟨user, rfl⟩

section Records

variable (world : Surroundings σ) (handler : Handler) (settings : Settings) (visit : Visit)

theorem introduces_introduce (token : Tokens) (p : Progress σ) (hp : p.problem = none) :
    Introduces fun user ↦ introduce world handler settings token { p with user } := by
  unfold introduce
  cases handler.provider with
  | github => exact introduces_conduct Profile.takes_mapGithub _ _ _ p hp
  | oidc =>
    have hgo (claims : Fields) := introduces_conduct Profile.takes_mapOpenId world.responder
      world.last (fetchProfile settings.provider.userInfoUrl none
        (some ("Bearer " ++ token.access))) { p with claims } hp
    unfold takeIdToken
    dsimp only
    split
    · simpa only [Progress.andThen, hp] using hgo p.claims
    · rename_i text hidentity
      split
      · simpa only [Progress.andThen, hp] using hgo p.claims
      · split
        · rename_i claims hclaims
          simpa only [Progress.andThen, hp] using hgo (Entries.update p.claims claims)
        · exact .rejects (p.stop (.failure .malformedIdToken)) (.failure .malformedIdToken) rfl
            fun user ↦ ⟨user, rfl⟩
        · rename_i f hclaims
          exact .rejects (p.stop (.fault f)) (.fault f) rfl fun user ↦ ⟨user, rfl⟩

/-- What a login is after its profile depends on the record that it began with in the memberships
only, unless there is a problem, and the problem does not depend on it. -/
theorem introduces_afterProfile :
    Introduces fun user ↦ afterProfile world handler settings { visit with user } := by
  unfold afterProfile
  dsimp only
  rcases handler.preparer.prepare world.clock visit.address visit.tokens with
    problem | ⟨token, notices⟩
  · exact .rejects (Progress.stop
      { time := 0, state := world.state, user := visit.user, claims := visit.claims } problem)
      problem rfl fun user ↦ ⟨user, rfl⟩
  · exact introduces_introduce world handler settings token (Progress.note
      { time := 0, state := world.state, user := visit.user, claims := visit.claims, clients := 1 }
      notices) rfl

end Records

/-! ### Behind the profile -/

section Results

variable {world : Surroundings σ} {handler : Handler} {settings : Settings} {visit : Visit}

/-- What a fan-out leaves of a login. -/
def problemOf : Probe.Outcome → Option Problem
  | .answers results => (firstFailure? results).map .failure
  | .faulty f => some (.fault f)
  | _ => some (.fault .cancelled)

/-- The answers of a fan-out, if it answers. -/
def resultsOf : Probe.Outcome → List Membership
  | .answers results => results
  | _ => []

theorem grant_nil (user : User) : grant user [] = user := rfl

theorem settle_github (world : Surroundings σ) (settings : Settings)
    (hgithub : handler.provider = .github) (token : Tokens) {p : Progress σ}
    (hp : p.problem = none) :
    (settle world handler settings token p).problem = problemOf
        (Probe.fanOut world.responder settings p.user token world.last p.time p.state).outcome ∧
      (settle world handler settings token p).user = grant p.user (resultsOf
        (Probe.fanOut world.responder settings p.user token world.last p.time
          p.state).outcome) := by
  unfold settle probeTeams
  rw [hgithub]
  dsimp only
  rcases (Probe.fanOut world.responder settings p.user token world.last p.time p.state).outcome with
    results | f | _ | _
  · unfold settleMemberships problemOf resultsOf
    dsimp only
    rcases firstFailure? results with _ | failure
    · exact ⟨hp, rfl⟩
    · exact ⟨rfl, rfl⟩
  · exact ⟨rfl, rfl⟩
  · exact ⟨rfl, rfl⟩
  · exact ⟨rfl, rfl⟩

theorem settle_oidc (world : Surroundings σ) (settings : Settings)
    (hoidc : handler.provider = .oidc) (token : Tokens) (p : Progress σ) :
    (settle world handler settings token p).problem = p.problem ∧
      (settle world handler settings token p).user = p.user := by
  unfold settle
  rw [hoidc]
  dsimp only
  split <;> exact ⟨rfl, rfl⟩

theorem answers_github (hgithub : handler.provider = .github)
    (hprofile : (afterProfile world handler settings visit).problem = none) :
    answers world handler settings visit = resultsOf (Probe.fanOut world.responder settings
      (afterProfile world handler settings visit).user (usedTokens world handler visit) world.last
      (afterProfile world handler settings visit).time
      (afterProfile world handler settings visit).state).outcome := by
  unfold answers
  dsimp only
  rw [hgithub, hprofile]
  rfl

theorem answers_oidc (hoidc : handler.provider = .oidc) :
    answers world handler settings visit = [] := by
  unfold answers
  dsimp only
  rw [hoidc]

theorem answers_of_problem {problem : Problem}
    (hprofile : (afterProfile world handler settings visit).problem = some problem) :
    answers world handler settings visit = [] := by
  unfold answers
  dsimp only
  rw [hprofile]
  cases handler.provider <;> rfl

/-- Behind the profile, a login only adds the memberships that its probes confirmed. -/
theorem user_describe : (describe world handler settings visit).user =
    grant (afterProfile world handler settings visit).user
      (answers world handler settings visit) := by
  rw [describe_eq]
  unfold Progress.andThen
  rcases hprofile : (afterProfile world handler settings visit).problem with _ | problem
  · cases hprovider : handler.provider with
    | github =>
      rw [answers_github hprovider hprofile]
      exact (settle_github world settings hprovider _ hprofile).2
    | oidc =>
      rw [answers_oidc hprovider, grant_nil]
      exact (settle_oidc world settings hprovider _ _).2
  · rw [answers_of_problem hprofile]
    rfl

/-- Taking a profile over keeps the memberships of the record. -/
theorem memberships_afterProfile :
    (afterProfile world handler settings visit).user.memberships = visit.user.memberships := by
  cases introduces_afterProfile world handler settings visit with
  | accepts q hproblem hnamed h => exact congrArg (·.user.memberships) (h visit.user)
  | rejects q problem hproblem h =>
    obtain ⟨described, hdescribed⟩ := h visit.user
    exact congrArg (·.user.memberships) hdescribed

theorem afterProfile_problem (h : (describe world handler settings visit).problem = none) :
    (afterProfile world handler settings visit).problem = none := by
  rcases hprofile : (afterProfile world handler settings visit).problem with _ | problem
  · rfl
  · rw [describe_eq, Progress.andThen, hprofile] at h
    exact hprofile.symm.trans h

/-- A login that describes its user without a problem got an answer from its fan-out, in which
nothing failed. -/
theorem outcome_of_describe (h : (describe world handler settings visit).problem = none)
    (hgithub : handler.provider = .github) :
    (Probe.fanOut world.responder settings (afterProfile world handler settings visit).user
      (usedTokens world handler visit) world.last (afterProfile world handler settings visit).time
      (afterProfile world handler settings visit).state).outcome =
        .answers (answers world handler settings visit) ∧
      ∀ m ∈ answers world handler settings visit, m.error? = none := by
  have hprofile := afterProfile_problem h
  rw [describe_eq, Progress.andThen, hprofile] at h
  rw [answers_github hgithub hprofile]
  have hproblem := (settle_github world settings hgithub (usedTokens world handler visit)
    hprofile).1.symm.trans h
  generalize (Probe.fanOut world.responder settings _ _ world.last _ _).outcome = outcome at *
  unfold problemOf at hproblem
  split at hproblem
  · rename_i results
    refine ⟨rfl, fun m hm ↦ ?_⟩
    simp only [Option.map_eq_none_iff, firstFailure?, List.findSome?_eq_none_iff] at hproblem
    exact hproblem m hm
  · cases hproblem
  · cases hproblem

/-- A login that ends in a problem answers with it, and one that does not decides by its user. -/
theorem authorize_eq : (authorize world handler settings visit).1 =
    match (describe world handler settings visit).problem with
    | some problem => .error problem
    | none => .ok (evaluate (describe world handler settings visit).user settings.whitelist
        (knownFacts settings (describe world handler settings visit).user)) := by
  unfold authorize
  dsimp only
  rcases (describe world handler settings visit).problem with _ | problem <;> rfl

theorem user_authorize : (authorize world handler settings visit).2.user =
    (describe world handler settings visit).user := by
  unfold authorize surface
  dsimp only
  split
  · dsimp only
    split <;> rfl
  · rfl

end Results

end Login

end Admission
