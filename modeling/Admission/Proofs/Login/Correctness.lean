import Admission.Exchange.Script
import Admission.Proofs.Decision
import Admission.Proofs.Login.Stages

/-!
# What a login decides by

A login that was granted or refused has asked about every entry of the team whitelist, and knows of
its user exactly the memberships that its own probes confirmed, if the record that it began with
listed none. `authorize_decides` says so, and that the decision is the one by the answers of the
probes.
-/

set_option autoImplicit false
set_option relaxedAutoImplicit false

namespace Admission.Login

variable {σ : Type} {world : Surroundings σ} {handler : Handler} {settings : Settings}
  {visit : Visit}

/-- Some probe of an entry ended with a membership. -/
def isConfirmed (ends : List (Ended (Except Fault Membership))) (entry : String) : Bool :=
  ends.any fun e ↦ e.result = .ok ⟨entry, .member⟩

/-- A login that decides has described its user without a problem. -/
theorem authorize_ok {decision : Decision} {p : Progress σ}
    (h : authorize world handler settings visit = (.ok decision, p)) :
    (describe world handler settings visit).problem = none ∧
      p.user = (describe world handler settings visit).user ∧
      decision = evaluate p.user settings.whitelist (knownFacts settings p.user) := by
  unfold authorize at h
  dsimp only at h
  split at h
  · cases h
  · rename_i hproblem
    cases h
    exact ⟨hproblem, rfl, rfl⟩

/-- A profile that was taken over without a problem names its user. -/
theorem username_afterProfile (h : (afterProfile world handler settings visit).problem = none) :
    (afterProfile world handler settings visit).user.username ≠ "" := by
  cases introduces_afterProfile world handler settings visit with
  | accepts q hproblem hnamed hlogin =>
    have hname : (afterProfile world handler settings visit).user.username = q.user.username :=
      congrArg (·.user.username) (hlogin visit.user)
    rwa [hname]
  | rejects q problem hproblem hlogin =>
    obtain ⟨described, hdescribed⟩ := hlogin visit.user
    have habsurd : (afterProfile world handler settings visit).problem = q.problem :=
      congrArg (·.problem) hdescribed
    rw [h, hproblem] at habsurd
    cases habsurd

/-- The probes of a login, as their fan-out left them. -/
theorem probes_github (hgithub : handler.provider = .github)
    (hprofile : (afterProfile world handler settings visit).problem = none) :
    probes world handler settings visit = (Probe.halted world.responder settings
      (afterProfile world handler settings visit).user (usedTokens world handler visit)
      (afterProfile world handler settings visit).time
      (afterProfile world handler settings visit).state world.last).1.ended := by
  unfold probes
  dsimp only
  rw [hgithub, hprofile]

/-- The answers of a login are what its probes ended with. -/
theorem mem_answers_iff (h : (describe world handler settings visit).problem = none)
    (m : Membership) : m ∈ answers world handler settings visit ↔
      ∃ e ∈ probes world handler settings visit, e.result = .ok m := by
  cases hprovider : handler.provider with
  | github =>
    rw [probes_github hprovider (afterProfile_problem h)]
    exact Probe.mem_of_answers (outcome_of_describe h hprovider).1 m
  | oidc =>
    have hprobes : probes world handler settings visit = [] := by
      unfold probes
      dsimp only
      rw [hprovider]
    rw [answers_oidc hprovider, hprobes]
    simp

/-- The entries that a login confirmed, in the order of the whitelist. -/
theorem confirmed_answers (h : (describe world handler settings visit).problem = none)
    (hteams : settings.whitelist.teams.Nodup) :
    Membership.confirmed (answers world handler settings visit) =
      settings.whitelist.teams.filter fun entry ↦
        (answers world handler settings visit).contains ⟨entry, .member⟩ := by
  cases hprovider : handler.provider with
  | github =>
    obtain ⟨hanswers, hnone⟩ := outcome_of_describe h hprovider
    exact Membership.confirmed_eq_filter (Probe.entries_of_answers hanswers hnone) hteams
  | oidc =>
    rw [answers_oidc hprovider]
    exact (List.filter_eq_nil_iff.mpr (by simp)).symm

/-- A login with a record that lists no memberships and with distinct entries knows of its user
exactly the memberships that one of its probes ended with, in the order of the whitelist; a provider
that probes nothing yields none. Its answers are about all entries and are what its probes ended
with. The decision is the one by these answers, and the user may pass exactly by one of the four
rules. -/
theorem authorize_decides {decision : Decision} {p : Progress σ}
    (hvisit : visit.user.memberships = []) (hteams : settings.whitelist.teams.Nodup)
    (h : authorize world handler settings visit = (.ok decision, p)) :
    let results := answers world handler settings visit
    let whitelist := settings.whitelist
    p.user.memberships =
        whitelist.teams.filter (isConfirmed (probes world handler settings visit)) ∧
      p.user.memberships.Nodup ∧
      (handler.provider = .oidc → p.user.memberships = []) ∧
      (handler.provider = .github → results.map Membership.entry = whitelist.teams) ∧
      (∀ m, m ∈ results ↔ ∃ e ∈ probes world handler settings visit, e.result = .ok m) ∧
      decision = evaluate p.user whitelist (Membership.facts results) ∧
      (decision.allowed = true ↔
        whitelist.allowAll = true ∨ p.user.username ∈ whitelist.users ∨
          EmailDomain.isCovered (EmailDomain.ofEmail? p.user.email) whitelist.domains = true ∨
          ∃ entry ∈ whitelist.teams, ⟨entry, .member⟩ ∈ results) := by
  intro results whitelist
  obtain ⟨hproblem, huser, hdecision⟩ := authorize_ok h
  have hconfirmed : Membership.confirmed results =
      whitelist.teams.filter fun entry ↦ results.contains ⟨entry, .member⟩ :=
    confirmed_answers hproblem hteams
  have hmemberships : p.user.memberships = Membership.confirmed results := by
    rw [huser, user_describe, grant_eq]
    simp [memberships_afterProfile, hvisit, results]
  have hanswers (m : Membership) : m ∈ results ↔
      ∃ e ∈ probes world handler settings visit, e.result = .ok m := mem_answers_iff hproblem m
  have hfilter : p.user.memberships =
      whitelist.teams.filter (isConfirmed (probes world handler settings visit)) := by
    rw [hmemberships, hconfirmed]
    refine List.filter_congr fun entry _ ↦ ?_
    rw [Bool.eq_iff_iff, List.contains_iff_mem, hanswers]
    simp [isConfirmed]
  have hby : decision = evaluate p.user whitelist (Membership.facts results) := by
    rw [hdecision]
    refine evaluate_congr fun entry hentry ↦ ?_
    rw [holds_knownFacts hentry, Decision.holds_facts, hmemberships]
  have hnamed : p.user.username ≠ "" := by
    have hsame : p.user.username = (afterProfile world handler settings visit).user.username := by
      rw [huser, user_describe, grant_eq]
    rw [hsame]
    exact username_afterProfile (afterProfile_problem hproblem)
  refine ⟨hfilter, hfilter ▸ hteams.filter _, fun hoidc ↦ ?_, fun hgithub ↦ ?_, hanswers, hby, ?_⟩
  · rw [hmemberships]
    show Membership.confirmed (answers world handler settings visit) = []
    rw [answers_oidc hoidc]
    rfl
  · obtain ⟨houtcome, hnone⟩ := outcome_of_describe hproblem hgithub
    exact Probe.entries_of_answers houtcome hnone
  · have hholds (entry : String) (hentry : entry ∈ whitelist.teams) :
        Decision.holds (Membership.facts results) entry = true ↔ ⟨entry, .member⟩ ∈ results := by
      rw [Decision.holds_facts, hconfirmed]
      simp [hentry]
    rw [hby, allowed_evaluate_iff]
    simp only [ne_eq, hnamed, not_false_eq_true, true_and]
    refine or_congr_right (or_congr_right (or_congr_right (exists_congr fun entry ↦ ?_)))
    exact and_congr_right fun hentry ↦ hholds entry hentry

/-! ### A login with two entries -/

/-- A provider that names its user and knows that they belong to the second of two organizations. -/
def memberScript : Script := [
  { url := "https://api.github.com/user"
    first := ⟨.response
      { status := 200, body := "\x7b\"login\": \"u\"\x7d".toUTF8.toList }, 1, 0⟩ },
  { url := "https://api.github.com/orgs/a/members/u"
    first := ⟨.response { status := 404 }, 3, 0⟩ },
  { url := "https://api.github.com/orgs/b/members/u"
    first := ⟨.response { status := 204 }, 1, 0⟩ }]

def memberSettings : Settings := { whitelist := { teams := ["a", "b"] } }

/-- The user passes by the second entry, and nothing else is known of them. -/
theorem authorize_decides_member :
    let world : Surroundings Script :=
      { responder := Script.responder, state := memberScript, clock := 0 }
    let visit : Visit := { user := { username := "old", id := 7 }, tokens := { access := "t" } }
    let login := authorize world { provider := .github } memberSettings visit
    visit.user.memberships = [] ∧ memberSettings.whitelist.teams.Nodup ∧
      login = (.ok (.team "b"), login.2) ∧ login.2.user.memberships = ["b"] := by
  intro world visit login
  have hlogin : login = (.ok (.team "b"), login.2) := Prod.ext (by decide +kernel) rfl
  have hteams : memberSettings.whitelist.teams.Nodup := by decide
  refine ⟨rfl, hteams, hlogin, (authorize_decides rfl hteams hlogin).1.trans ?_⟩
  decide +kernel

end Admission.Login
