import Admission.Exchange.Script
import Admission.Proofs.Decision
import Admission.Proofs.Login.Stages

/-!
# What a login inherits from earlier ones

A login overwrites the record that it begins with, except for the memberships, to which it adds
those that it confirms. So two logins that differ only in their records end in the same problem, but
what an earlier login left among the memberships counts as if it had been confirmed.
`authorize_records` says exactly when the earlier records do not matter, and `authorize_inherits`
shows that they can.
-/

set_option autoImplicit false
set_option relaxedAutoImplicit false

namespace Admission.Login

variable {σ : Type} (world : Surroundings σ) (handler : Handler) (settings : Settings)
  (visit : Visit)

/-! ### The same login with another record -/

/-- Whether a profile is accepted does not depend on the record, nor does the problem with it. -/
theorem problem_afterProfile_record (user : User) :
    (afterProfile world handler settings { visit with user }).problem =
      (afterProfile world handler settings visit).problem := by
  cases introduces_afterProfile world handler settings visit with
  | accepts q hproblem hnamed h =>
    exact (congrArg (·.problem) (h user)).trans (congrArg (·.problem) (h visit.user)).symm
  | rejects q problem hproblem h =>
    obtain ⟨_, hdescribed⟩ := h user
    obtain ⟨_, hdescribed'⟩ := h visit.user
    exact (congrArg (·.problem) hdescribed).trans (congrArg (·.problem) hdescribed').symm

/-- After a profile that was accepted, only the memberships are left of the record. -/
theorem afterProfile_record (h : (afterProfile world handler settings visit).problem = none)
    (user : User) : afterProfile world handler settings { visit with user } =
      { afterProfile world handler settings visit with
        user := { (afterProfile world handler settings visit).user with
          memberships := user.memberships } } := by
  cases introduces_afterProfile world handler settings visit with
  | accepts q hproblem hnamed hlogin =>
    have hvisit : afterProfile world handler settings visit =
        { q with user := { q.user with memberships := visit.user.memberships } } :=
      hlogin visit.user
    rw [hvisit]
    exact hlogin user
  | rejects q problem hproblem hlogin =>
    obtain ⟨_, hdescribed⟩ := hlogin visit.user
    have habsurd : (afterProfile world handler settings visit).problem = q.problem :=
      congrArg (·.problem) hdescribed
    rw [h, hproblem] at habsurd
    cases habsurd

/-- The answers of a login do not depend on the record that it began with. -/
theorem answers_record (user : User) : answers world handler settings { visit with user } =
    answers world handler settings visit := by
  rcases hprofile : (afterProfile world handler settings visit).problem with _ | problem
  · cases hprovider : handler.provider with
    | github =>
      have hprofile' :=
        (problem_afterProfile_record world handler settings visit user).trans hprofile
      rw [answers_github hprovider hprofile', answers_github hprovider hprofile,
        afterProfile_record world handler settings visit hprofile user]
      rfl
    | oidc => rw [answers_oidc hprovider, answers_oidc hprovider]
  · have hprofile' := (problem_afterProfile_record world handler settings visit user).trans hprofile
    rw [answers_of_problem hprofile', answers_of_problem hprofile]

/-- The problem that a login ends in does not depend on the record that it began with. -/
theorem problem_describe_record (user : User) :
    (describe world handler settings { visit with user }).problem =
      (describe world handler settings visit).problem := by
  have hproblem := problem_afterProfile_record world handler settings visit user
  rw [describe_eq, describe_eq, Progress.andThen, Progress.andThen, hproblem]
  rcases hprofile : (afterProfile world handler settings visit).problem with _ | problem
  · cases hprovider : handler.provider with
    | github =>
      refine (settle_github world settings hprovider _ (hproblem.trans hprofile)).1.trans ?_
      rw [afterProfile_record world handler settings visit hprofile user]
      exact (settle_github world settings hprovider _ hprofile).1.symm
    | oidc =>
      refine (settle_oidc world settings hprovider _ _).1.trans (hproblem.trans ?_)
      exact (settle_oidc world settings hprovider _ _).1.symm
  · exact hproblem.trans rfl

/-- The entries that a login confirms. -/
def confirmedBy : List String :=
  Membership.confirmed (answers world handler settings visit)

/-- The confirmed memberships of a login are put behind those of the record. -/
theorem memberships_describe_record (user : User) :
    (describe world handler settings { visit with user }).user.memberships =
      merge user.memberships (confirmedBy world handler settings visit) := by
  rw [user_describe, grant_eq, answers_record, memberships_afterProfile]
  rfl

/-- If the profile was accepted, nothing else of the record is left. -/
theorem user_describe_record (h : (afterProfile world handler settings visit).problem = none)
    (user : User) : (describe world handler settings { visit with user }).user =
      { (describe world handler settings visit).user with
        memberships := merge user.memberships (confirmedBy world handler settings visit) } := by
  rw [user_describe, user_describe, grant_eq, grant_eq, answers_record,
    afterProfile_record world handler settings visit h]
  rfl

/-- A user who is known to belong to some entries is decided about by the first of them in the
whitelist, unless an earlier rule lets them pass. -/
theorem evaluate_knownFacts (user : User) :
    evaluate user settings.whitelist (knownFacts settings user) =
      (beforeTeams? user settings.whitelist).getD
        (byTeams settings.whitelist.teams user.memberships.contains) := by
  rw [evaluate_eq, byTeams, byTeams, List.find?_congr fun entry hentry ↦ holds_knownFacts hentry]

/-- The first entry of the whitelist that counts as a membership: the record listed it, or it was
confirmed. -/
def firstKnown? (earlier : List String) : Option String :=
  settings.whitelist.teams.find? fun entry ↦
    earlier.contains entry || (confirmedBy world handler settings visit).contains entry

/-- The decision of a login with some record. -/
theorem authorize_record (h : (describe world handler settings visit).problem = none)
    (user : User) : (authorize world handler settings { visit with user }).1 =
      .ok ((beforeTeams? (describe world handler settings visit).user settings.whitelist).getD
        (match firstKnown? world handler settings visit user.memberships with
          | some entry => .team entry
          | none => .refused)) := by
  rw [authorize_eq, problem_describe_record, h, evaluate_knownFacts,
    user_describe_record world handler settings visit (afterProfile_problem h), byTeams]
  simp only [contains_merge]
  rfl

/-- A login that ends in a problem does so with every record. -/
theorem authorize_record_of_problem {problem : Problem}
    (h : (describe world handler settings visit).problem = some problem) (user : User) :
    (authorize world handler settings { visit with user }).1 = .error problem := by
  rw [authorize_eq, problem_describe_record, h]

/-- A profile that was accepted decides by the rules before the team rule, whatever the record was.
-/
theorem beforeTeams?_record (h : (afterProfile world handler settings visit).problem = none)
    (user : User) :
    beforeTeams? (authorize world handler settings { visit with user }).2.user settings.whitelist =
      beforeTeams? (describe world handler settings visit).user settings.whitelist := by
  rw [user_authorize, user_describe_record world handler settings visit h]
  rfl

/-- Two logins that differ in their records only end in the same problem, if in any. -/
theorem authorize_error_iff (user user' : User) (problem : Problem) :
    (authorize world handler settings { visit with user }).1 = .error problem ↔
      (authorize world handler settings { visit with user := user' }).1 = .error problem := by
  rcases hproblem : (describe world handler settings visit).problem with _ | other
  · rw [authorize_record world handler settings visit hproblem,
      authorize_record world handler settings visit hproblem]
    simp
  · rw [authorize_record_of_problem world handler settings visit hproblem,
      authorize_record_of_problem world handler settings visit hproblem]

/-- The same memberships lead to the same decision. -/
theorem authorize_eq_of_merge
    (haccepted : (afterProfile world handler settings visit).problem = none)
    {user user' : User}
    (h : merge user.memberships (confirmedBy world handler settings visit) =
      merge user'.memberships (confirmedBy world handler settings visit)) :
    (authorize world handler settings { visit with user }).1 =
      (authorize world handler settings { visit with user := user' }).1 := by
  rw [authorize_eq, authorize_eq, problem_describe_record world handler settings visit user,
    problem_describe_record world handler settings visit user',
    user_describe_record world handler settings visit haccepted user,
    user_describe_record world handler settings visit haccepted user', h]

/-- The record does not matter to the outcome exactly if there is a problem, an earlier rule
decides, or the first known entry is the same. -/
theorem authorize_eq_iff (user user' : User) :
    (authorize world handler settings { visit with user }).1 =
        (authorize world handler settings { visit with user := user' }).1 ↔
      (∃ problem, (authorize world handler settings { visit with user }).1 = .error problem) ∨
        (beforeTeams? (authorize world handler settings { visit with user }).2.user
          settings.whitelist).isSome = true ∨
        firstKnown? world handler settings visit user.memberships =
          firstKnown? world handler settings visit user'.memberships := by
  rcases hproblem : (describe world handler settings visit).problem with _ | problem
  · rw [beforeTeams?_record world handler settings visit (afterProfile_problem hproblem),
      authorize_record world handler settings visit hproblem,
      authorize_record world handler settings visit hproblem]
    rcases beforeTeams? (describe world handler settings visit).user settings.whitelist with
      _ | decision
    · rcases firstKnown? world handler settings visit user.memberships with _ | entry <;>
        rcases firstKnown? world handler settings visit user'.memberships with _ | entry' <;> simp
    · simp
  · rw [authorize_record_of_problem world handler settings visit hproblem,
      authorize_record_of_problem world handler settings visit hproblem]
    simp

/-- Where nothing is confirmed, the team rule decides by what the record listed. -/
theorem authorize_team_iff (h : confirmedBy world handler settings visit = []) (user : User)
    (entry : String) :
    (authorize world handler settings { visit with user }).1 = .ok (.team entry) ↔
      (∀ problem, (authorize world handler settings { visit with user }).1 ≠ .error problem) ∧
        beforeTeams? (authorize world handler settings { visit with user }).2.user
          settings.whitelist = none ∧
        settings.whitelist.teams.find? user.memberships.contains = some entry := by
  rcases hproblem : (describe world handler settings visit).problem with _ | problem
  · have hfirst : firstKnown? world handler settings visit user.memberships =
        settings.whitelist.teams.find? user.memberships.contains := by
      simp [firstKnown?, h]
    rw [beforeTeams?_record world handler settings visit (afterProfile_problem hproblem),
      authorize_record world handler settings visit hproblem, hfirst]
    rcases hbefore :
      beforeTeams? (describe world handler settings visit).user settings.whitelist with
      _ | decision
    · rcases settings.whitelist.teams.find? user.memberships.contains with _ | known <;> simp
    · have hnot : decision ≠ .team entry := by
        rintro rfl
        exact beforeTeams?_ne_team hbefore
      simp [hnot]
  · rw [authorize_record_of_problem world handler settings visit hproblem]
    simp

/-- Two logins that differ in their records only end in the same problem, if in any. Each leaves the
memberships of its record with the confirmed ones behind them, and if the profile is accepted then
nothing else of the record. So the records do not matter exactly if their memberships become the
same, and they do not matter to the decision exactly if there is a problem, an earlier rule decides,
or the first known entry of the whitelist is the same. Where nothing is confirmed, the team rule
lets the user pass by what the record listed. -/
theorem authorize_records (user user' : User) :
    let login := authorize world handler settings { visit with user }
    let login' := authorize world handler settings { visit with user := user' }
    let confirmed := confirmedBy world handler settings visit
    let isAccepted := (afterProfile world handler settings visit).problem = none
    (∀ problem, login.1 = .error problem ↔ login'.1 = .error problem) ∧
      login.2.user.memberships = merge user.memberships confirmed ∧
      (isAccepted → login'.2.user =
        { login.2.user with memberships := merge user'.memberships confirmed }) ∧
      (isAccepted → ((login.1 = login'.1 ∧ login.2.user = login'.2.user) ↔
        merge user.memberships confirmed = merge user'.memberships confirmed)) ∧
      (¬isAccepted → login.1 = login'.1 ∧
        login.2.user = (afterProfile world handler settings { visit with user }).user) ∧
      (login.1 = login'.1 ↔ (∃ problem, login.1 = .error problem) ∨
        (beforeTeams? login.2.user settings.whitelist).isSome = true ∨
        firstKnown? world handler settings visit user.memberships =
          firstKnown? world handler settings visit user'.memberships) ∧
      (confirmed = [] → ∀ entry, login.1 = .ok (.team entry) ↔
        (∀ problem, login.1 ≠ .error problem) ∧
          beforeTeams? login.2.user settings.whitelist = none ∧
          settings.whitelist.teams.find? user.memberships.contains = some entry) ∧
      (handler.provider = .oidc → confirmed = []) := by
  intro login login' confirmed isAccepted
  have hmemberships (user : User) :
      (authorize world handler settings { visit with user }).2.user.memberships =
        merge user.memberships confirmed := by
    rw [user_authorize]
    exact memberships_describe_record world handler settings visit user
  have huser (haccepted : isAccepted) : login'.2.user =
      { login.2.user with memberships := merge user'.memberships confirmed } := by
    show (authorize world handler settings { visit with user := user' }).2.user =
      { (authorize world handler settings { visit with user }).2.user with
        memberships := merge user'.memberships confirmed }
    rw [user_authorize, user_authorize,
      user_describe_record world handler settings visit haccepted user,
      user_describe_record world handler settings visit haccepted user']
  refine ⟨authorize_error_iff world handler settings visit user user', hmemberships user, huser, ?_,
    ?_, authorize_eq_iff world handler settings visit user user',
    fun hnone ↦ authorize_team_iff world handler settings visit hnone user, fun hoidc ↦ ?_⟩
  · intro haccepted
    constructor
    · rintro ⟨-, hsame⟩
      rw [← hmemberships user, ← hmemberships user']
      exact congrArg User.memberships hsame
    · intro hmerge
      refine ⟨authorize_eq_of_merge world handler settings visit haccepted hmerge, ?_⟩
      rw [huser haccepted, ← hmerge, ← hmemberships user]
  · intro hrejected
    obtain ⟨problem, hprofile⟩ := Option.ne_none_iff_exists'.mp hrejected
    have hproblem (user : User) : describe world handler settings { visit with user } =
        afterProfile world handler settings { visit with user } := by
      rw [describe_eq, Progress.andThen, problem_afterProfile_record, hprofile]
    have hvisit : (describe world handler settings visit).problem = some problem := by
      rw [← hprofile, ← hproblem visit.user]
    refine ⟨?_, ?_⟩
    · exact (authorize_record_of_problem world handler settings visit hvisit user).trans
        (authorize_record_of_problem world handler settings visit hvisit user').symm
    · exact user_authorize.trans (congrArg Progress.user (hproblem user))
  · show Membership.confirmed (answers world handler settings visit) = []
    rw [answers_oidc hoidc]
    rfl

/-! ### A record that lets its user pass -/

/-- A provider that names its user and denies the membership of an organization. -/
def strangerScript : Script := [
  { url := "https://api.github.com/user"
    first := ⟨.response
      { status := 200
        body := "\x7b\"login\": \"u\", \"preferred_username\": \"u\"\x7d".toUTF8.toList }, 0, 0⟩ },
  { url := "https://api.github.com/orgs/org/members/u"
    first := ⟨.response { status := 404 }, 0, 0⟩ }]

def strangerWorld : Surroundings Script :=
  { responder := Script.responder, state := strangerScript, clock := 0 }

def orgSettings : Settings := { whitelist := { teams := ["org"] } }

/-- Whichever kind of provider is asked, a user who is refused with a fresh record passes with one
that an earlier login left, and keeps the membership, though the only probe finds none. -/
theorem authorize_inherits :
    let login (provider : Provider) (memberships : List String) :=
      authorize strangerWorld { provider } orgSettings
        { user := { memberships }, tokens := { access := "t" } }
    (∀ provider, (login provider ["org"]).1 = .ok (.team "org") ∧
        (login provider ["org"]).2.user.memberships = ["org"] ∧
        (login provider []).1 = .ok .refused ∧ (login provider []).2.user.memberships = []) ∧
      answers strangerWorld { provider := .github } orgSettings { tokens := { access := "t" } } =
        [⟨"org", .notMember⟩] ∧
      ¬∀ (provider : Provider) (user user' : User),
        (authorize strangerWorld { provider } orgSettings
            { user, tokens := { access := "t" } }).1 =
          (authorize strangerWorld { provider } orgSettings
            { user := user', tokens := { access := "t" } }).1 := by
  intro login
  have hlogin : ∀ provider, (login provider ["org"]).1 = .ok (.team "org") ∧
      (login provider ["org"]).2.user.memberships = ["org"] ∧
      (login provider []).1 = .ok .refused ∧ (login provider []).2.user.memberships = [] := by
    intro provider
    cases provider <;> decide +kernel
  refine ⟨hlogin, by decide +kernel, fun hsame ↦ ?_⟩
  have habsurd := hsame .github { memberships := ["org"] } {}
  rw [show (authorize strangerWorld { provider := .github } orgSettings
      { user := { memberships := ["org"] }, tokens := { access := "t" } }).1 = _ from
        (hlogin .github).1,
    show (authorize strangerWorld { provider := .github } orgSettings
      { user := {}, tokens := { access := "t" } }).1 = _ from (hlogin .github).2.2.1] at habsurd
  cases habsurd

end Admission.Login
