import Admission.Decision
import Mathlib.Data.List.Find

/-!
# Which rule decides

The rules are asked in a fixed order, and only the last one asks about memberships. `evaluate_eq`
splits a decision at that point: what `beforeTeams?` finds stands, and otherwise the first known
entry of the team whitelist decides. `allowed_evaluate_iff` says when somebody may pass.
-/

set_option autoImplicit false
set_option relaxedAutoImplicit false

namespace Admission

/-- What the rules before the team rule decide, if one of them lets the user pass. -/
def beforeTeams? (user : User) (whitelist : Whitelist) : Option Decision :=
  if whitelist.allowAll then some .everyone
  else if !user.username.isEmpty && whitelist.users.contains user.username then
    some (.user user.username)
  else if EmailDomain.isCovered (EmailDomain.ofEmail? user.email) whitelist.domains then
    some (.domain ((EmailDomain.ofEmail? user.email).getD ""))
  else none

/-- What the team rule decides by the first entry that is known to be a membership. -/
def byTeams (teams : List String) (isKnown : String → Bool) : Decision :=
  match teams.find? isKnown with
  | some entry => .team entry
  | none => .refused

/-- The team rule decides where no rule before it lets the user pass. -/
theorem evaluate_eq (user : User) (whitelist : Whitelist) (facts : List (String × Bool)) :
    evaluate user whitelist facts = (beforeTeams? user whitelist).getD
      (byTeams whitelist.teams (Decision.holds facts)) := by
  unfold evaluate beforeTeams? byTeams
  by_cases hall : whitelist.allowAll = true
  · simp [hall]
  · by_cases huser : (!user.username.isEmpty && whitelist.users.contains user.username) = true
    · simp only [hall, huser, Bool.false_eq_true, if_false, if_true, Option.getD_some]
    · by_cases hdomain :
        EmailDomain.isCovered (EmailDomain.ofEmail? user.email) whitelist.domains = true
      · simp only [hall, huser, hdomain, Bool.false_eq_true, if_false, if_true, Option.getD_some]
      · rcases whitelist.teams.find? (Decision.holds facts) with _ | entry
        · simp only [hall, huser, hdomain, Bool.false_eq_true, if_false, Option.getD_none]
        · simp only [hall, huser, hdomain, Bool.false_eq_true, if_false, Option.getD_none]

/-- Facts that agree on the listed entries lead to the same decision. -/
theorem evaluate_congr {user : User} {whitelist : Whitelist} {facts facts' : List (String × Bool)}
    (h : ∀ entry ∈ whitelist.teams, Decision.holds facts entry = Decision.holds facts' entry) :
    evaluate user whitelist facts = evaluate user whitelist facts' := by
  rw [evaluate_eq, evaluate_eq, byTeams, byTeams, List.find?_congr h]

theorem allowed_byTeams_iff {teams : List String} {isKnown : String → Bool} :
    (byTeams teams isKnown).allowed = true ↔ ∃ entry ∈ teams, isKnown entry = true := by
  unfold byTeams
  rcases hfind : teams.find? isKnown with _ | entry
  · simpa [Decision.allowed] using List.find?_eq_none.mp hfind
  · simp only [Decision.allowed, true_iff]
    exact ⟨entry, List.mem_of_find?_eq_some hfind, List.find?_some hfind⟩

/-- The rules before the team rule find something if everybody is allowed, the user is listed, or
their domain is covered. -/
theorem isSome_beforeTeams?_iff (user : User) (whitelist : Whitelist) :
    (beforeTeams? user whitelist).isSome = true ↔
      whitelist.allowAll = true ∨
        (user.username ≠ "" ∧ user.username ∈ whitelist.users) ∨
        EmailDomain.isCovered (EmailDomain.ofEmail? user.email) whitelist.domains = true := by
  unfold beforeTeams?
  split
  · rename_i hall
    simp [hall]
  · rename_i hall
    split
    · rename_i huser
      simp only [Bool.and_eq_true, Bool.not_eq_true', String.isEmpty_eq_false_iff,
        List.contains_iff_mem] at huser
      simp [huser]
    · rename_i huser
      simp only [Bool.and_eq_true, Bool.not_eq_true', String.isEmpty_eq_false_iff,
        List.contains_iff_mem] at huser
      split
      · rename_i hdomain
        simp [hdomain]
      · rename_i hdomain
        simp [hall, huser, hdomain]

/-- Whatever the rules before the team rule find lets the user pass. -/
theorem allowed_of_beforeTeams? {user : User} {whitelist : Whitelist} {decision : Decision}
    (h : beforeTeams? user whitelist = some decision) : decision.allowed = true := by
  unfold beforeTeams? at h
  split at h
  · cases h
    rfl
  · split at h
    · cases h
      rfl
    · split at h
      · cases h
        rfl
      · cases h

/-- The rules before the team rule do not find a team. -/
theorem beforeTeams?_ne_team {user : User} {whitelist : Whitelist} {entry : String} :
    beforeTeams? user whitelist ≠ some (.team entry) := by
  unfold beforeTeams?
  split
  · simp
  · split
    · simp
    · split <;> simp

/-- A user may pass if everybody is allowed, they are listed by name, their domain is covered, or a
listed entry is known to be a membership. -/
theorem allowed_evaluate_iff {user : User} {whitelist : Whitelist} {facts : List (String × Bool)} :
    (evaluate user whitelist facts).allowed = true ↔
      whitelist.allowAll = true ∨
        (user.username ≠ "" ∧ user.username ∈ whitelist.users) ∨
        EmailDomain.isCovered (EmailDomain.ofEmail? user.email) whitelist.domains = true ∨
        ∃ entry ∈ whitelist.teams, Decision.holds facts entry = true := by
  have hbefore := isSome_beforeTeams?_iff user whitelist
  rw [evaluate_eq, ← or_assoc, ← or_assoc, or_assoc (a := whitelist.allowAll = true), ← hbefore]
  rcases hfind : beforeTeams? user whitelist with _ | decision
  · simpa using allowed_byTeams_iff
  · simpa using allowed_of_beforeTeams? hfind

end Admission
