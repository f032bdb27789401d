import Admission.Proofs.Login.Correctness

/-!
# Memberships that cannot be settled

A login whose probes answer is decided only if none of the answers is a failure, whatever the other
rules of the whitelist say. `authorize_surfaces` says which failure it ends in otherwise, and that
the memberships that were confirmed until then stay with the user all the same.
-/

set_option autoImplicit false
set_option relaxedAutoImplicit false

namespace Admission.Login

variable {σ : Type} {world : Surroundings σ} {handler : Handler} {settings : Settings}
  {visit : Visit}

/-! ### The failure among some answers -/

/-- Answers are a failure of the login exactly if one of them is a failure. -/
theorem firstFailure?_eq_none_iff {results : List Membership} :
    firstFailure? results = none ↔ ∀ m ∈ results, m.error? = none := by
  simp only [firstFailure?, List.findSome?_eq_none_iff, Option.map_eq_none_iff]

/-- The failure of a login names the first answer that is a failure. -/
theorem firstFailure?_eq_some_iff {results : List Membership} {failure : Failure} :
    firstFailure? results = some failure ↔ ∃ entry cause,
      failure = .indeterminate entry cause ∧
        results.find? (fun m ↦ m.error?.isSome) = some ⟨entry, .failed cause⟩ := by
  induction results with
  | nil => simp [firstFailure?]
  | cons m results ih =>
    obtain ⟨entry, standing⟩ := m
    cases standing with
    | failed cause =>
      have hfirst : firstFailure? (⟨entry, .failed cause⟩ :: results) =
          some (.indeterminate entry cause) := rfl
      rw [hfirst, List.find?_cons_of_pos rfl]
      constructor
      · intro h
        exact ⟨entry, cause, (Option.some.inj h).symm, rfl⟩
      · rintro ⟨entry', cause', rfl, h⟩
        cases h
        rfl
    | member => exact ih
    | notMember => exact ih

/-! ### Logins that reach the probes -/

/-- A login that reaches the probes ends in what their fan-out leaves, or in a decision. -/
theorem problem_of_github (hgithub : handler.provider = .github)
    (hprofile : (afterProfile world handler settings visit).problem = none) :
    (describe world handler settings visit).problem =
      problemOf (Probe.fanOut world.responder settings
        (afterProfile world handler settings visit).user (usedTokens world handler visit)
        world.last (afterProfile world handler settings visit).time
        (afterProfile world handler settings visit).state).outcome := by
  rw [describe_eq, Progress.andThen, hprofile]
  exact (settle_github world settings hgithub (usedTokens world handler visit) hprofile).1

/-- The fan-out of a login that ends in no fault gave the answers of that login. -/
theorem outcome_of_no_fault (hgithub : handler.provider = .github)
    (hprofile : (afterProfile world handler settings visit).problem = none)
    (hfault : ∀ f, (authorize world handler settings visit).1 ≠ .error (.fault f)) :
    (Probe.fanOut world.responder settings (afterProfile world handler settings visit).user
      (usedTokens world handler visit) world.last (afterProfile world handler settings visit).time
      (afterProfile world handler settings visit).state).outcome =
        .answers (answers world handler settings visit) := by
  have hproblem (f : Fault) :
      (describe world handler settings visit).problem ≠ some (.fault f) := by
    intro h
    apply hfault f
    rw [authorize_eq, h]
  rw [problem_of_github hgithub hprofile] at hproblem
  rw [answers_github hgithub hprofile]
  rcases houtcome : (Probe.fanOut world.responder settings _ _ world.last _ _).outcome with
    results | f | _ | _ <;> rw [houtcome] at hproblem
  · rfl
  · exact absurd rfl (hproblem f)
  · exact absurd rfl (hproblem .cancelled)
  · exact absurd rfl (hproblem .cancelled)

/-- A login over distinct entries that reaches the probes and ends in no fault has an answer for
each entry whose probe was completed, in the order of the whitelist. If one of the answers is a
failure, the login ends in the first of them, and otherwise in a decision. Whichever it is, the
completed memberships that the user did not have are put behind those that they had. -/
theorem authorize_surfaces (hgithub : handler.provider = .github)
    (hteams : settings.whitelist.teams.Nodup)
    (hprofile : (afterProfile world handler settings visit).problem = none)
    (hfault : ∀ f, (authorize world handler settings visit).1 ≠ .error (.fault f)) :
    let login := authorize world handler settings visit
    let completed := probes world handler settings visit
    let results := answers world handler settings visit
    let teams := settings.whitelist.teams
    results.map Membership.entry = teams.filter (Probe.isCompleted completed) ∧
      (∀ m, m ∈ results ↔ ∃ e ∈ completed, e.result = .ok m) ∧
      ((∃ entry cause, login.1 = .error (.failure (.indeterminate entry cause))) ↔
        ∃ m ∈ results, m.error?.isSome = true) ∧
      (∀ entry cause, login.1 = .error (.failure (.indeterminate entry cause)) ↔
        results.find? (fun m ↦ m.error?.isSome) = some ⟨entry, .failed cause⟩) ∧
      ((∃ decision, login.1 = .ok decision) ↔ ∀ m ∈ results, m.error? = none) ∧
      login.2.user.memberships = visit.user.memberships ++ teams.filter fun entry ↦
        isConfirmed completed entry && !visit.user.memberships.contains entry := by
  intro login completed results teams
  have houtcome := outcome_of_no_fault hgithub hprofile hfault
  have hentries : results.map Membership.entry = teams.filter (Probe.isCompleted completed) := by
    simp only [completed, probes_github hgithub hprofile]
    exact Probe.completed_entries_of_answers hteams houtcome
  have hmem (m : Membership) : m ∈ results ↔ ∃ e ∈ completed, e.result = .ok m := by
    simp only [completed, probes_github hgithub hprofile]
    exact Probe.mem_of_answers houtcome m
  have hproblem : (describe world handler settings visit).problem =
      (firstFailure? results).map .failure := by
    rw [problem_of_github hgithub hprofile, houtcome]
    rfl
  have hlogin : login.1 = (firstFailure? results).elim
      (.ok (evaluate (describe world handler settings visit).user settings.whitelist
        (knownFacts settings (describe world handler settings visit).user)))
      fun failure ↦ .error (.failure failure) := by
    show (authorize world handler settings visit).1 = _
    rw [authorize_eq, hproblem]
    rcases firstFailure? results with _ | failure <;> rfl
  have hfirst (entry : String) (cause : Failure) :
      login.1 = .error (.failure (.indeterminate entry cause)) ↔
        results.find? (fun m ↦ m.error?.isSome) = some ⟨entry, .failed cause⟩ := by
    have hsome := @firstFailure?_eq_some_iff results (.indeterminate entry cause)
    rw [hlogin]
    rcases hfailure : firstFailure? results with _ | failure
    · simpa [hfailure] using hsome
    · simpa [hfailure] using hsome
  have hdecides : (∃ decision, login.1 = .ok decision) ↔ ∀ m ∈ results, m.error? = none := by
    rw [← firstFailure?_eq_none_iff, hlogin]
    rcases firstFailure? results with _ | failure <;> simp
  have hfails : (∃ entry cause, login.1 = .error (.failure (.indeterminate entry cause))) ↔
      ∃ m ∈ results, m.error?.isSome = true := by
    simp only [hfirst]
    constructor
    · rintro ⟨entry, cause, hfind⟩
      exact ⟨_, List.mem_of_find?_eq_some hfind, rfl⟩
    · rintro ⟨m, hm, herror⟩
      have hsome : (results.find? fun m ↦ m.error?.isSome).isSome = true :=
        List.find?_isSome.mpr ⟨m, hm, herror⟩
      obtain ⟨⟨entry, standing⟩, hfind⟩ := Option.isSome_iff_exists.mp hsome
      cases standing with
      | failed cause => exact ⟨entry, cause, hfind⟩
      | member => cases List.find?_some hfind
      | notMember => cases List.find?_some hfind
  have hmemberships : login.2.user.memberships = merge visit.user.memberships
      (Membership.confirmed results) := by
    show (authorize world handler settings visit).2.user.memberships = _
    rw [user_authorize, user_describe, grant_eq, memberships_afterProfile]
  have hconfirmed : Membership.confirmed results = teams.filter (isConfirmed completed) := by
    rw [Membership.confirmed_eq_filter hentries (hteams.filter _), List.filter_filter]
    refine List.filter_congr fun entry _ ↦ ?_
    rw [Bool.eq_iff_iff, Bool.and_eq_true, List.contains_iff_mem, hmem]
    simp only [isConfirmed, Probe.isCompleted, List.any_eq_true, decide_eq_true_eq]
    refine ⟨fun h ↦ h.1, fun h ↦ ⟨h, ?_⟩⟩
    obtain ⟨e, he, hresult⟩ := h
    exact ⟨e, he, by rw [hresult]; rfl⟩
  refine ⟨hentries, hmem, hfails, hfirst, hdecides, ?_⟩
  rw [hmemberships, hconfirmed, merge, List.filter_filter]
  simp only [Bool.and_comm]

/-! ### A login that is not decided -/

/-- A provider that confirms two organizations after a second, refuses to tell about a third after
two, and would confirm a fourth after five. -/
def outageScript : Script := [
  { url := "https://api.github.com/user"
    first := ⟨.response
      { status := 200, body := "\x7b\"login\": \"u\"\x7d".toUTF8.toList }, 1, 0⟩ },
  { url := "https://api.github.com/orgs/a/members/u"
    first := ⟨.response { status := 204 }, 1, 0⟩ },
  { url := "https://api.github.com/orgs/b/members/u"
    first := ⟨.response { status := 204 }, 1, 0⟩ },
  { url := "https://api.github.com/orgs/c/members/u"
    first := ⟨.response { status := 403 }, 2, 0⟩ },
  { url := "https://api.github.com/orgs/d/members/u"
    first := ⟨.response { status := 204 }, 5, 0⟩ }]

/-- Everybody may pass, and yet the memberships are asked for. -/
def openSettings : Settings :=
  { whitelist := { allowAll := true, teams := ["d", "c", "a", "//", "b"] } }

/-- Though everybody may pass, the login ends in the failure, and the one membership that is new and
was confirmed before it stays. -/
theorem authorize_surfaces_outage :
    let world : Surroundings Script :=
      { responder := Script.responder, state := outageScript, clock := 0 }
    let handler : Handler := { provider := .github }
    let visit : Visit :=
      { user := { username := "old", memberships := ["b"] }, tokens := { access := "t" } }
    let login := authorize world handler openSettings visit
    handler.provider = .github ∧ openSettings.whitelist.teams.Nodup ∧
      (afterProfile world handler openSettings visit).problem = none ∧
      (∀ f, login.1 ≠ .error (.fault f)) ∧
      login.1 = .error (.failure (.indeterminate "c"
        (.unexpectedStatus 403 "https://api.github.com/orgs/c/members/u" ""))) ∧
      login.2.user.memberships = ["b", "a"] := by
  intro world handler visit login
  have hteams : openSettings.whitelist.teams.Nodup := by decide
  have hprofile : (afterProfile world handler openSettings visit).problem = none := by
    decide +kernel
  have hlogin : login.1 = .error (.failure (.indeterminate "c"
      (.unexpectedStatus 403 "https://api.github.com/orgs/c/members/u" ""))) := by
    decide +kernel
  have hfault (f : Fault) : login.1 ≠ .error (.fault f) := by
    rw [hlogin]
    simp
  have hmemberships := (authorize_surfaces rfl hteams hprofile hfault).2.2.2.2.2
  refine ⟨rfl, hteams, hprofile, hfault, hlogin, hmemberships.trans ?_⟩
  decide +kernel

end Admission.Login
