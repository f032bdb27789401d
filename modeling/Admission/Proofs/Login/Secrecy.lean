import Admission.Proofs.Login.Stages
import Admission.Proofs.Probe.Secrecy

/-!
# Logins with either of two access tokens

`authorize_hidesToken` says that a login through GitHub, and every probe on its own, does the same
with either of two access tokens: the result, the notices, the counts, the record and the claims are
the same, and so are the requests, except for the token in the query of those that carry it. What is
asked for behind a redirect does not carry it.
-/

set_option autoImplicit false
set_option relaxedAutoImplicit false

namespace Admission

variable {σ : Type} {token₁ token₂ : String}

/-- The same state of a login with either of two access tokens. -/
structure Progress.AlikeBut (token₁ token₂ : String) (p₁ p₂ : Progress σ) : Prop where
  time : p₁.time = p₂.time
  state : p₁.state = p₂.state
  user : p₁.user = p₂.user
  claims : p₁.claims = p₂.claims
  clients : p₁.clients = p₂.clients
  problem : p₁.problem = p₂.problem
  trace : p₁.trace.Alike (Request.SameBut token₁ token₂) p₂.trace

namespace Progress

/-- The login has come to an address that is too long. -/
def IsLost (p : Progress σ) : Prop :=
  ∃ problem, p.problem = some problem ∧ problem.isTooLong = true

variable {p₁ p₂ : Progress σ}

theorem AlikeBut.note (h : AlikeBut token₁ token₂ p₁ p₂) (notices : List Notice) :
    AlikeBut token₁ token₂ (p₁.note notices) (p₂.note notices) := by
  refine ⟨h.time, h.state, h.user, h.claims, h.clients, h.problem, h.trace.append ?_⟩
  rw [h.time]
  refine List.forall₂_same.mpr fun e he ↦ ?_
  obtain ⟨n, -, rfl⟩ := List.mem_map.mp he
  exact ⟨rfl, .noticed n⟩

theorem AlikeBut.count (h : AlikeBut token₁ token₂ p₁ p₂) (c : Count) :
    AlikeBut token₁ token₂ (p₁.count c) (p₂.count c) := by
  refine ⟨h.time, h.state, h.user, h.claims, h.clients, h.problem, h.trace.append ?_⟩
  rw [h.time]
  exact .cons ⟨rfl, .counted c⟩ .nil

theorem AlikeBut.stop (h : AlikeBut token₁ token₂ p₁ p₂) (problem : Problem) :
    AlikeBut token₁ token₂ (p₁.stop problem) (p₂.stop problem) :=
  ⟨h.time, h.state, h.user, h.claims, h.clients, rfl, h.trace⟩

/-- Logins that are alike stay so when they conduct processes that are alike, unless one of these is
lost. -/
theorem AlikeBut.conduct {α : Type} (h : AlikeBut token₁ token₂ p₁ p₂) {responder : Responder σ}
    (hresponder : responder.IgnoresQueries) (last : Option Rat)
    {process₁ process₂ : Process (Except Problem α)}
    (hprocess : Process.AlikeBut token₁ token₂ Eq process₁ process₂)
    {f : α → Progress σ → Progress σ}
    (hf : ∀ a q₁ q₂, AlikeBut token₁ token₂ q₁ q₂ → AlikeBut token₁ token₂ (f a q₁) (f a q₂)) :
    IsLost (p₁.conduct responder last process₁ f) ∨
      IsLost (p₂.conduct responder last process₂ f) ∨
      AlikeBut token₁ token₂ (p₁.conduct responder last process₁ f)
        (p₂.conduct responder last process₂ f) := by
  have hrun := hprocess.run (hresponder.blind token₁ token₂) last p₁.time p₁.state
  have hsame : process₂.run responder last p₁.time p₁.state =
      process₂.run responder last p₂.time p₂.state := by rw [h.time, h.state]
  rw [hsame] at hrun
  unfold Progress.conduct
  generalize process₁.run responder last p₁.time p₁.state = run₁ at *
  generalize process₂.run responder last p₂.time p₂.state = run₂ at *
  dsimp only
  rcases hrun with ⟨time, _, hending, problem, rfl, hlong⟩ |
    ⟨time, _, hending, problem, rfl, hlong⟩ | halike
  · left
    rw [hending]
    exact ⟨problem, rfl, hlong⟩
  · right
    left
    rw [hending]
    exact ⟨problem, rfl, hlong⟩
  · right
    right
    obtain ⟨trace₁, state₁, ending₁⟩ := run₁
    obtain ⟨trace₂, state₂, ending₂⟩ := run₂
    have hending := halike.ending
    have hafter (time : Rat) : AlikeBut token₁ token₂
        { p₁ with time, state := state₁, trace := p₁.trace ++ trace₁ }
        { p₂ with time, state := state₂, trace := p₂.trace ++ trace₂ } :=
      ⟨rfl, halike.state, h.user, h.claims, h.clients, h.problem, h.trace.append halike.trace⟩
    dsimp only at hending ⊢
    cases hending with
    | @finished time result _ hresult =>
      subst hresult
      rcases result with problem | a
      · exact (hafter time).stop problem
      · exact hf a _ _ (hafter time)
    | stopped time => exact (hafter time).stop _
    | never time => exact (hafter time).stop _

end Progress

namespace Login

open Progress

/-! ### The stages -/

/-- What becomes of the answer to the request for a profile. -/
def readProfile (url : String) (received : Except Fault Answer) :
    Process (Except Problem Fields) :=
  match received with
  | .error f => .faulty f
  | .ok (.broken reason) => .fail (.profileUnreachable url reason)
  | .ok (.response r) =>
    if r.status ≠ 200 then .fail (.unexpectedStatus r.status url "")
    else
      .done (Profile.parse r.body)

theorem readProfile_obeys {sends : Request → Prop} {pauses : Binary64 → Prop} (url : String)
    (received : Except Fault Answer) : (readProfile url received).Obeys sends pauses 0 := by
  unfold readProfile
  split
  · exact .done _ 0
  · exact .done _ 0
  · split
    · exact .done _ 0
    · exact .done _ 0

/-- What is done with the request for a profile. -/
def askProfile (url : String) (made : Except Fault Request) : Process (Except Problem Fields) :=
  match made with
  | .error f => .faulty f
  | .ok request => .ask request fun answer ↦ readProfile url (request.receive answer)

/-- Fetching the profile is alike with either token. -/
theorem fetchProfile_alike (url : String) (authorization : Option String) :
    Process.AlikeBut token₁ token₂ Eq
      (fetchProfile url (some (Probe.tokenParameter, token₁)) authorization)
      (fetchProfile url (some (Probe.tokenParameter, token₂)) authorization) :=
  @Process.alike_make _ token₁ token₂ _ (askProfile url) (askProfile url) url authorization
    (fun _ ↦ rfl) (fun _ ↦ rfl) (fun _ ↦ rfl) fun request hrequest ↦
      @Process.alike_ask _ token₁ token₂ _ request hrequest (readProfile url) (readProfile url)
        (fun _ ↦ rfl) (fun _ ↦ rfl) fun received ↦
          Process.Sends.alike ⟨0, readProfile_obeys url received⟩ .lacking (fun _ ↦ rfl) _

/-- Logins that are alike take a profile over in the same way. -/
theorem takeOver_alike (mapper : Fields → User → Profile.Mapped) (payload : Fields)
    {p₁ p₂ : Progress σ} (h : AlikeBut token₁ token₂ p₁ p₂) :
    AlikeBut token₁ token₂ (takeOver mapper payload p₁) (takeOver mapper payload p₂) := by
  have htaken : AlikeBut token₁ token₂
      { p₁ with
        claims := Entries.update p₁.claims payload, user := (mapper payload p₁.user).user }
      { p₂ with
        claims := Entries.update p₂.claims payload, user := (mapper payload p₁.user).user } :=
    ⟨h.time, h.state, rfl, by rw [h.claims], h.clients, h.problem, h.trace⟩
  unfold takeOver
  rw [← h.user]
  dsimp only
  split
  · exact (htaken.note _).stop _
  · exact htaken.note _

/-- Logins that are alike take the answers of their probes over in the same way. -/
theorem settleMemberships_alike (results : List Membership) {p₁ p₂ : Progress σ}
    (h : AlikeBut token₁ token₂ p₁ p₂) :
    AlikeBut token₁ token₂ (settleMemberships results p₁) (settleMemberships results p₂) := by
  have hgranted : AlikeBut token₁ token₂ { p₁ with user := grant p₁.user results }
      { p₂ with user := grant p₁.user results } :=
    ⟨h.time, h.state, rfl, h.claims, h.clients, h.problem, h.trace⟩
  unfold settleMemberships
  rw [← h.user]
  dsimp only
  split
  · exact hgranted.stop _
  · exact hgranted.note _

/-- Logins that are alike probe their entries in the same way, unless a probe ends because an
address is too long. -/
theorem probeTeams_alike {responder : Responder σ} (hresponder : responder.IgnoresQueries)
    (settings : Settings) (tokens : Tokens) (last : Option Rat) {p₁ p₂ : Progress σ}
    (h : AlikeBut token₁ token₂ p₁ p₂) :
    Pool.IsLost (FailsBy Fault.isTooLong) (Probe.halted responder settings p₁.user
        { tokens with access := token₁ } p₁.time p₁.state last).1 ∨
      Pool.IsLost (FailsBy Fault.isTooLong) (Probe.halted responder settings p₂.user
        { tokens with access := token₂ } p₂.time p₂.state last).1 ∨
      AlikeBut token₁ token₂
        (probeTeams responder settings { tokens with access := token₁ } last p₁)
        (probeTeams responder settings { tokens with access := token₂ } last p₂) := by
  have hfan := @Probe.fanOut_alike token₁ token₂ p₁.user tokens σ responder hresponder settings last
    p₁.time p₁.state
  rcases hfan with hlost | hlost | halike
  · exact .inl hlost
  · right
    left
    rwa [← h.user, ← h.time, ← h.state]
  · right
    right
    unfold probeTeams
    rw [← h.user, ← h.time, ← h.state]
    generalize Probe.fanOut responder settings p₁.user { tokens with access := token₁ } last p₁.time
      p₁.state = fan₁ at *
    generalize Probe.fanOut responder settings p₁.user { tokens with access := token₂ } last p₁.time
      p₁.state = fan₂ at *
    have hafter : AlikeBut token₁ token₂
        { p₁ with time := fan₁.time, state := fan₁.state, trace := p₁.trace ++ fan₁.trace }
        { p₂ with
          time := fan₂.time, state := fan₂.state, user := p₁.user
          trace := p₂.trace ++ fan₂.trace } :=
      ⟨halike.time, halike.state, rfl, h.claims, h.clients, h.problem,
        h.trace.append halike.trace⟩
    dsimp only
    rw [← halike.outcome]
    split
    · exact settleMemberships_alike _ hafter
    · exact hafter.stop _
    · exact hafter.stop _

/-! ### Logins with a token -/

end Login

/-- The tokens with another access token. -/
def Tokens.withAccess (tokens : Tokens) (token : String) : Tokens :=
  { tokens with access := token }

/-- The visit with another access token. -/
def Visit.withAccess (visit : Visit) (token : String) : Visit :=
  { visit with tokens := visit.tokens.withAccess token }

/-- The handler with another access token in the tokens that it hands out itself, if it does. -/
def Handler.withAccess (handler : Handler) (token : String) : Handler :=
  { handler with
    preparer := match handler.preparer with
      | .standard => .standard
      | .unchecked other => .unchecked (other.map (·.withAccess token)) }

namespace Login

open Progress

/-- Preparing a login does not depend on the access token, which it hands on, unless it is missing.
-/
theorem prepare_withAccess (handler : Handler) (clock : Int) (address : Option String)
    (tokens : Tokens) : ∃ prepared : Except Problem (Tokens × List Notice), ∀ token, token ≠ "" →
      (handler.withAccess token).preparer.prepare clock address (tokens.withAccess token) =
        prepared.map fun p ↦ (p.1.withAccess token, p.2) := by
  rcases hpreparer : handler.preparer with _ | other
  · have hpresent (token : String) (htoken : token ≠ "") :
        (tokens.withAccess token).access.isEmpty = false := by
      simpa [Tokens.withAccess] using htoken
    have hexpiry (token : String) :
        (tokens.withAccess token).isExpired? clock = tokens.isExpired? clock := rfl
    simp only [Handler.withAccess, hpreparer, Preparer.prepare, checkTokens, hexpiry]
    rcases tokens.isExpired? clock with _ | _ | _
    · refine ⟨.error (.fault .clockMismatch), fun token htoken ↦ ?_⟩
      rw [hpresent token htoken]
      rfl
    · refine ⟨.ok (tokens, clientNotice address), fun token htoken ↦ ?_⟩
      rw [hpresent token htoken]
      rfl
    · refine ⟨.error (.failure .tokenExpired), fun token htoken ↦ ?_⟩
      rw [hpresent token htoken]
      rfl
  · refine ⟨.ok (other.getD tokens, []), fun token _ ↦ ?_⟩
    simp only [Handler.withAccess, hpreparer, Preparer.prepare]
    rcases other with _ | other <;> rfl

/-- The tokens that a login uses have its access token. -/
theorem usedTokens_withAccess (world : Surroundings σ) (handler : Handler) (visit : Visit) :
    ∃ tokens : Tokens, ∀ token, token ≠ "" →
      usedTokens world (handler.withAccess token) (visit.withAccess token) =
        { tokens with access := token } := by
  obtain ⟨prepared, hprepared⟩ :=
    prepare_withAccess handler world.clock visit.address visit.tokens
  have hused (token : String) (htoken : token ≠ "") :
      (handler.withAccess token).preparer.prepare world.clock (visit.withAccess token).address
        (visit.withAccess token).tokens = prepared.map fun p ↦ (p.1.withAccess token, p.2) :=
    hprepared token htoken
  rcases prepared with problem | ⟨tokens, notices⟩
  · refine ⟨visit.tokens, fun token htoken ↦ ?_⟩
    unfold usedTokens
    rw [hused token htoken]
    rfl
  · refine ⟨tokens, fun token htoken ↦ ?_⟩
    unfold usedTokens
    rw [hused token htoken]
    rfl

section Login

variable {world : Surroundings σ} {handler : Handler}

/-- Up to the profile, logins are alike with either token, unless one of them comes to an address
that is too long. -/
theorem afterProfile_alike (hresponder : world.responder.IgnoresQueries)
    (hgithub : handler.provider = .github) (settings : Settings) (visit : Visit)
    (htoken₁ : token₁ ≠ "") (htoken₂ : token₂ ≠ "") :
    IsLost (afterProfile world (handler.withAccess token₁) settings (visit.withAccess token₁)) ∨
      IsLost (afterProfile world (handler.withAccess token₂) settings (visit.withAccess token₂)) ∨
      AlikeBut token₁ token₂
        (afterProfile world (handler.withAccess token₁) settings (visit.withAccess token₁))
        (afterProfile world (handler.withAccess token₂) settings (visit.withAccess token₂)) := by
  obtain ⟨prepared, hprepared⟩ :=
    prepare_withAccess handler world.clock visit.address visit.tokens
  have hprovider (token : String) : (handler.withAccess token).provider = .github := hgithub
  unfold afterProfile
  rw [show (visit.withAccess token₁).tokens = visit.tokens.withAccess token₁ from rfl,
    show (visit.withAccess token₂).tokens = visit.tokens.withAccess token₂ from rfl,
    show (visit.withAccess token₁).address = visit.address from rfl,
    show (visit.withAccess token₂).address = visit.address from rfl,
    hprepared token₁ htoken₁, hprepared token₂ htoken₂]
  have hbegun : AlikeBut token₁ token₂
      { time := 0, state := world.state, user := visit.user, claims := visit.claims : Progress σ }
      { time := 0, state := world.state, user := visit.user, claims := visit.claims } :=
    ⟨rfl, rfl, rfl, rfl, rfl, rfl, .nil⟩
  rcases prepared with problem | ⟨tokens, notices⟩
  · exact .inr (.inr (hbegun.stop problem))
  · have hmade : AlikeBut token₁ token₂
        { time := 0, state := world.state, user := visit.user, claims := visit.claims
          clients := 1 : Progress σ }
        { time := 0, state := world.state, user := visit.user, claims := visit.claims
          clients := 1 } :=
      ⟨rfl, rfl, rfl, rfl, rfl, rfl, .nil⟩
    simp only [Except.map, introduce, hprovider]
    exact (hmade.note notices).conduct hresponder world.last
      (fetchProfile_alike settings.provider.userInfoUrl none)
      fun payload _ _ ↦ takeOver_alike Profile.mapGithub payload

/-- Neither the login nor one of its probes ends because an address is too long. -/
structure WithinLimit (world : Surroundings σ) (handler : Handler) (settings : Settings)
    (visit : Visit) : Prop where
  login : ∀ f, (authorize world handler settings visit).1 = .error (.fault f) → f.isTooLong = false
  probes : ∀ e ∈ probes world handler settings visit, ∀ f, e.result = .error f →
    f.isTooLong = false

/-- A login within the limit comes to no address that is too long before it probes. -/
theorem WithinLimit.afterProfile {settings : Settings} {visit : Visit}
    (h : WithinLimit world handler settings visit) :
    ¬IsLost (afterProfile world handler settings visit) := by
  rintro ⟨problem, hproblem, hlong⟩
  have hresult : (authorize world handler settings visit).1 = .error problem := by
    rw [authorize_eq, describe_eq, Progress.andThen, hproblem]
    dsimp only
    rw [hproblem]
  cases problem with
  | failure f => cases hlong
  | fault f =>
    have hshort : f.isTooLong = false := h.login f hresult
    exact absurd hlong (Bool.eq_false_iff.mp hshort)

/-- None of the probes of a login within the limit comes to an address that is too long. -/
theorem WithinLimit.halted {settings : Settings} {visit : Visit}
    (h : WithinLimit world handler settings visit) (hgithub : handler.provider = .github)
    (hprofile : (Login.afterProfile world handler settings visit).problem = none) :
    ¬Pool.IsLost (FailsBy Fault.isTooLong)
      (Probe.halted world.responder settings (Login.afterProfile world handler settings visit).user
        (usedTokens world handler visit) (Login.afterProfile world handler settings visit).time
        (Login.afterProfile world handler settings visit).state world.last).1 := by
  rintro ⟨e, he, f, hresult, hlong⟩
  have hprobe : e ∈ Login.probes world handler settings visit := by
    unfold Login.probes
    dsimp only
    rwa [hgithub, hprofile]
  have hshort : f.isTooLong = false := h.probes e hprobe f hresult
  exact absurd hlong (Bool.eq_false_iff.mp hshort)

/-- A login within the limit describes its user in the same way with either token. -/
theorem describe_alike (hresponder : world.responder.IgnoresQueries)
    (hgithub : handler.provider = .github) (settings : Settings) (visit : Visit)
    (htoken₁ : token₁ ≠ "") (htoken₂ : token₂ ≠ "")
    (hlimit₁ : WithinLimit world (handler.withAccess token₁) settings (visit.withAccess token₁))
    (hlimit₂ : WithinLimit world (handler.withAccess token₂) settings (visit.withAccess token₂)) :
    AlikeBut token₁ token₂
      (describe world (handler.withAccess token₁) settings (visit.withAccess token₁))
      (describe world (handler.withAccess token₂) settings (visit.withAccess token₂)) := by
  rcases afterProfile_alike hresponder hgithub settings visit htoken₁ htoken₂ with
    hlost | hlost | halike
  · exact absurd hlost hlimit₁.afterProfile
  · exact absurd hlost hlimit₂.afterProfile
  · rw [describe_eq, describe_eq]
    unfold Progress.andThen
    rw [← halike.problem]
    split
    · exact halike
    · rename_i hprofile
      have hprofile₂ := halike.problem.symm.trans hprofile
      have hhalted₁ := hlimit₁.halted hgithub hprofile
      have hhalted₂ := hlimit₂.halted hgithub hprofile₂
      obtain ⟨tokens, htokens⟩ := usedTokens_withAccess world handler visit
      rw [htokens token₁ htoken₁] at hhalted₁ ⊢
      rw [htokens token₂ htoken₂] at hhalted₂ ⊢
      have hsettle (token : String) (p : Progress σ) :
          settle world (handler.withAccess token) settings { tokens with access := token } p =
            probeTeams world.responder settings { tokens with access := token } world.last p := by
        unfold settle
        rw [show (handler.withAccess token).provider = .github from hgithub]
      rw [hsettle, hsettle]
      rcases probeTeams_alike hresponder settings tokens world.last halike with
        hlost | hlost | hprobed
      · exact absurd hlost hhalted₁
      · exact absurd hlost hhalted₂
      · exact hprobed

/-- What a login does behind its description is alike with either token. -/
theorem authorize_of_describe_alike {handler₁ handler₂ : Handler} (settings : Settings)
    {visit₁ visit₂ : Visit}
    (h : AlikeBut token₁ token₂ (describe world handler₁ settings visit₁)
      (describe world handler₂ settings visit₂)) :
    (authorize world handler₁ settings visit₁).1 = (authorize world handler₂ settings visit₂).1 ∧
      AlikeBut token₁ token₂ (authorize world handler₁ settings visit₁).2
        (authorize world handler₂ settings visit₂).2 := by
  unfold authorize
  generalize describe world handler₁ settings visit₁ = p₁ at h
  generalize describe world handler₂ settings visit₂ = p₂ at h
  dsimp only
  rw [← h.problem]
  rcases hproblem : p₁.problem with _ | problem
  · have hcount (c : Count) : (p₂.count c).user = p₁.user := h.user.symm
    dsimp only [decide]
    rw [← h.user, hcount]
    exact ⟨rfl, (h.count _).note _⟩
  · refine ⟨rfl, ?_⟩
    unfold surface
    rw [← h.problem, ← h.user, hproblem]
    dsimp only
    split
    · exact (h.count _).note _
    · exact h

end Login

/-- A login through GitHub, or a single probe, with either of two access tokens, at a provider that
answers by addresses up to their queries: as long as no address is too long, it comes to the same
decision or problem, with the same notices and counts at the same instants, the same record, claims
and problem, and requests that are the same, apart from the token in the query of those that carry
it. All other requests lack it, and so do those of the second query of a probe, whatever the
redirect was that led to it. -/
theorem authorize_hidesToken (world : Surroundings σ) (handler : Handler) (settings : Settings)
    (visit : Visit) {token₁ token₂ : String} (hresponder : world.responder.IgnoresQueries)
    (hgithub : handler.provider = .github) (htoken₁ : token₁ ≠ "") (htoken₂ : token₂ ≠ "") :
    (WithinLimit world (handler.withAccess token₁) settings (visit.withAccess token₁) →
      WithinLimit world (handler.withAccess token₂) settings (visit.withAccess token₂) →
      let login (token : String) :=
        authorize world (handler.withAccess token) settings (visit.withAccess token)
      (login token₁).1 = (login token₂).1 ∧
        AlikeBut token₁ token₂ (login token₁).2 (login token₂).2 ∧
        (login token₁).2.trace.notices = (login token₂).2.trace.notices ∧
        (∀ metrics, (login token₁).2.trace.addTo metrics = (login token₂).2.trace.addTo metrics) ∧
        List.Forall₂ (fun a b ↦ a.1 = b.1 ∧ Request.SameBut token₁ token₂ a.2 b.2)
          (login token₁).2.trace.requests (login token₂).2.trace.requests) ∧
    (∀ (user : User) (tokens : Tokens) (entry : String) (last : Option Rat) (now : Rat) (state : σ),
      let probe (token : String) := Probe.probeEntry world.responder settings.provider user
        (tokens.withAccess token) entry last now state
      (probe token₁).outcome.isTooLong = false → (probe token₂).outcome.isTooLong = false →
        Probe.Fanout.AlikeBut token₁ token₂ (probe token₁) (probe token₂)) ∧
    (∀ (user : User) (tokens : Tokens) (group : Group) (last : Option Rat) (now : Rat) (state : σ),
      let asked (token : String) := (Probe.ask settings.provider user (tokens.withAccess token)
        group).run world.responder last now state
      ¬(asked token₁).IsLost (FailsBy Problem.isTooLong) →
        ¬(asked token₂).IsLost (FailsBy Problem.isTooLong) →
          Process.Run.Alike (Request.SameBut token₁ token₂) Eq (asked token₁) (asked token₂)) ∧
    ∀ (username org url : String) (reply : Query.Reply),
      (Probe.askPublicly settings.provider username org url reply).Sends fun r ↦
        r.url.LacksToken := by
  refine ⟨fun hlimit₁ hlimit₂ ↦ ?_, fun user tokens entry last now state hshort₁ hshort₂ ↦ ?_,
    fun user tokens group last now state hshort₁ hshort₂ ↦ ?_,
    Probe.askPublicly_sends settings.provider⟩
  · have hdescribe :=
      describe_alike hresponder hgithub settings visit htoken₁ htoken₂ hlimit₁ hlimit₂
    obtain ⟨hresult, halike⟩ := authorize_of_describe_alike settings hdescribe
    refine ⟨hresult, halike, halike.trace.notices_eq, fun metrics ↦ ?_, halike.trace.requests⟩
    unfold Trace.addTo
    rw [halike.trace.counts_eq]
  · rcases Probe.probeEntry_alike settings.provider user tokens hresponder entry last now state with
      hlong | hlong | halike
    · exact absurd hlong (Bool.eq_false_iff.mp hshort₁)
    · exact absurd hlong (Bool.eq_false_iff.mp hshort₂)
    · exact halike
  · rcases (Probe.ask_alike settings.provider user tokens group).run
      (hresponder.blind token₁ token₂) last now state with hlost | hlost | halike
    · exact absurd hlost hshort₁
    · exact absurd hlost hshort₂
    · exact halike

/-! ### A redirect that keeps the query -/

/-- A provider that redirects the question about an organization to a fragment, and so to an address
with the query that was asked with; it confirms the membership there. -/
def fragmentScript : Script := [
  { url := "https://api.github.com/user"
    first := ⟨.response
      { status := 200, body := "\x7b\"login\": \"u\"\x7d".toUTF8.toList }, 1, 0⟩ },
  { url := "https://api.github.com/orgs/org/members/u"
    first := ⟨.response
      { status := 302
        headers := [("location".toUTF8.toList, "#public".toUTF8.toList)] }, 1, 0⟩ },
  { url := "https://api.github.com/orgs/org/members/u#public"
    first := ⟨.response { status := 204 }, 1, 0⟩ }]

def fragmentWorld : Surroundings Script :=
  { responder := Script.responder, state := fragmentScript, clock := 0 }

def fragmentSettings : Settings := { whitelist := { teams := ["org"] } }

/-- A login at this provider. -/
def fragmentLogin (token : String) : Except Problem Decision × Progress Script :=
  authorize fragmentWorld (Handler.withAccess { provider := .github } token) fragmentSettings
    (Visit.withAccess { tokens := { access := "" } } token)

/-- The user passes with either of two tokens, and only the requests differ. -/
theorem authorize_hidesToken_fragment :
    Script.responder.IgnoresQueries ∧ "first" ≠ "" ∧ "second" ≠ "" ∧
      (fragmentLogin "first").1 = .ok (.team "org") ∧
      (fragmentLogin "first").1 = (fragmentLogin "second").1 ∧
      (fragmentLogin "first").2.trace.notices = (fragmentLogin "second").2.trace.notices ∧
      (fragmentLogin "first").2.trace.requests ≠ (fragmentLogin "second").2.trace.requests := by
  have hok (token : String) (hresult : (fragmentLogin token).1 = .ok (.team "org"))
      (hprobes : ∀ e ∈ probes fragmentWorld (Handler.withAccess { provider := .github } token)
        fragmentSettings (Visit.withAccess { tokens := { access := "" } } token),
          e.result = .ok ⟨"org", .member⟩) :
      WithinLimit fragmentWorld (Handler.withAccess { provider := .github } token) fragmentSettings
        (Visit.withAccess { tokens := { access := "" } } token) := by
    refine ⟨fun f hf ↦ ?_, fun e he f hf ↦ ?_⟩
    · rw [fragmentLogin] at hresult
      rw [hresult] at hf
      cases hf
    · rw [hprobes e he] at hf
      cases hf
  have hfirst : (fragmentLogin "first").1 = .ok (.team "org") := by decide +kernel
  have hsecond : (fragmentLogin "second").1 = .ok (.team "org") := by decide +kernel
  obtain ⟨hresult, -, hnotices, -⟩ := (authorize_hidesToken fragmentWorld { provider := .github }
    fragmentSettings { tokens := { access := "" } } Script.ignoresQueries_responder rfl
    (by decide) (by decide)).1 (hok "first" hfirst (by decide +kernel))
      (hok "second" hsecond (by decide +kernel))
  exact ⟨Script.ignoresQueries_responder, by decide, by decide, hfirst, hresult, hnotices,
    by decide +kernel⟩

end Login

end Admission
