import Admission.Proofs.Decision
import Admission.Proofs.Domain.Labels
import Admission.Proofs.Memberships

/-!
# The law of the evaluator

A decision is compared with the rules as an operator reads them: everybody, the users by name, the
domains, and the entries of which some answer says that they are a membership. `Verdict` lists the
rules in their order, each with its reason, and `verdict_evaluate` says that every decision follows
it. For that, answers about distinct entries have to become facts that hold exactly of the confirmed
entries (`holds_facts_iff_mem`). What a decision does not read can then be left out
(`evaluate_facts_congr`), and what enlarges the rules refuses nobody (`allowed_of_extends`).
-/

set_option autoImplicit false
set_option relaxedAutoImplicit false

namespace Admission

/-! ### The rules -/

namespace Whitelist

/-- The user has a name, and it is listed. -/
def Names (whitelist : Whitelist) (user : User) : Prop :=
  user.username ≠ "" ∧ user.username ∈ whitelist.users

/-- The mail address of the user has a domain, and a listed domain covers it. -/
def Covers (whitelist : Whitelist) (user : User) (domain : String) : Prop :=
  EmailDomain.ofEmail? user.email = some domain ∧
    EmailDomain.isCovered (some domain) whitelist.domains = true

/-- Some answer calls a listed entry a membership. -/
def Confirms (whitelist : Whitelist) (results : List Membership) : Prop :=
  ∃ entry ∈ whitelist.teams, ⟨entry, .member⟩ ∈ results

/-- A whitelist that lists whatever another one lists, and possibly more. -/
structure Extends (larger whitelist : Whitelist) : Prop where
  allowAll : whitelist.allowAll = true → larger.allowAll = true
  users : whitelist.users ⊆ larger.users
  domains : whitelist.domains ⊆ larger.domains
  teams : whitelist.teams ⊆ larger.teams

end Whitelist

/-- Whether a user may pass by a whitelist and some answers, and the reason: the first rule that
holds gives it, and the team rule names the first entry that is confirmed. -/
inductive Verdict (user : User) (whitelist : Whitelist) (results : List Membership) :
    Bool → String → Prop
  | everyone (hall : whitelist.allowAll = true) :
    Verdict user whitelist results true "all users are allowed"
  | user (hall : whitelist.allowAll = false) (hnames : whitelist.Names user) :
    Verdict user whitelist results true s!"user {user.username} is whitelisted"
  | domain {domain : String} (hall : whitelist.allowAll = false) (hnames : ¬whitelist.Names user)
    (hcovers : whitelist.Covers user domain) :
    Verdict user whitelist results true s!"email domain {domain} is whitelisted"
  | team {before after : List String} {entry : String} (hall : whitelist.allowAll = false)
    (hnames : ¬whitelist.Names user) (hcovers : ∀ domain, ¬whitelist.Covers user domain)
    (hteams : whitelist.teams = before ++ entry :: after)
    (hbefore : ∀ e ∈ before, ⟨e, .member⟩ ∉ results) (hentry : ⟨entry, .member⟩ ∈ results) :
    Verdict user whitelist results true s!"member of {entry}"
  | refused (hall : whitelist.allowAll = false) (hnames : ¬whitelist.Names user)
    (hcovers : ∀ domain, ¬whitelist.Covers user domain)
    (hteams : ¬whitelist.Confirms results) :
    Verdict user whitelist results false "no whitelist rule matched"

section Rules

variable {user : User} {whitelist : Whitelist}

theorem names_iff : whitelist.Names user ↔
    (!user.username.isEmpty && whitelist.users.contains user.username) = true := by
  simp [Whitelist.Names]

/-- The domain rule holds of the domain of the mail address, or not at all. -/
theorem exists_covers_iff : (∃ domain, whitelist.Covers user domain) ↔
    EmailDomain.isCovered (EmailDomain.ofEmail? user.email) whitelist.domains = true := by
  unfold Whitelist.Covers
  rcases EmailDomain.ofEmail? user.email with _ | domain
  · simp [EmailDomain.isCovered]
  · simp

end Rules

/-! ### Answers as facts -/

section Answers

variable {user : User} {whitelist : Whitelist} {results others : List Membership}
  (hresults : (results.map Membership.entry).Nodup)
include hresults

/-- Facts made of answers about distinct entries hold exactly of the entries that an answer calls a
membership. -/
theorem holds_facts_iff_mem {entry : String} :
    Decision.holds (Membership.facts results) entry = true ↔ ⟨entry, .member⟩ ∈ results := by
  rw [Decision.holds_facts, Membership.confirmed_eq_filter rfl hresults, List.contains_iff_mem,
    List.mem_filter, List.contains_iff_mem]
  constructor
  · exact And.right
  · intro h
    exact ⟨List.mem_map_of_mem (f := Membership.entry) h, h⟩

/-- The decision follows the rules. -/
theorem verdict_evaluate :
    Verdict user whitelist results (evaluate user whitelist (Membership.facts results)).allowed
      (evaluate user whitelist (Membership.facts results)).reason := by
  have hcovers : (∃ domain, whitelist.Covers user domain) ↔
      EmailDomain.isCovered (EmailDomain.ofEmail? user.email) whitelist.domains = true :=
    exists_covers_iff
  unfold evaluate
  by_cases hall : whitelist.allowAll = true
  · rw [if_pos hall]
    exact .everyone hall
  · rw [if_neg hall]
    rw [Bool.not_eq_true] at hall
    by_cases hnames : whitelist.Names user
    · rw [if_pos (names_iff.mp hnames)]
      exact .user hall hnames
    · rw [if_neg (hnames ∘ names_iff.mpr)]
      dsimp only
      by_cases hdomain : ∃ domain, whitelist.Covers user domain
      · rw [if_pos (hcovers.mp hdomain)]
        obtain ⟨domain, hdomain⟩ := hdomain
        rw [hdomain.1]
        exact .domain hall hnames hdomain
      · rw [if_neg (hdomain ∘ hcovers.mpr)]
        have hnone := not_exists.mp hdomain
        rcases hfind : whitelist.teams.find? (Decision.holds (Membership.facts results)) with
          _ | entry
        · refine .refused hall hnames hnone ?_
          rintro ⟨entry, hteam, hmember⟩
          exact List.find?_eq_none.mp hfind entry hteam ((holds_facts_iff_mem hresults).mpr hmember)
        · obtain ⟨hholds, before, after, hteams, hbefore⟩ := List.find?_eq_some_iff_append.mp hfind
          refine .team hall hnames hnone hteams (fun e he hmember ↦ ?_)
            ((holds_facts_iff_mem hresults).mp hholds)
          have hfalse := hbefore e he
          rw [(holds_facts_iff_mem hresults).mpr hmember] at hfalse
          cases hfalse

/-- A user may pass exactly if one of the four rules holds. -/
theorem allowed_evaluate_facts_iff :
    (evaluate user whitelist (Membership.facts results)).allowed = true ↔
      whitelist.allowAll = true ∨ whitelist.Names user ∨
        (∃ domain, whitelist.Covers user domain) ∨ whitelist.Confirms results := by
  rw [allowed_evaluate_iff, exists_covers_iff]
  simp only [Whitelist.Names, Whitelist.Confirms, holds_facts_iff_mem hresults]

/-- Only which listed entries are confirmed matters for a decision. -/
theorem evaluate_facts_congr (hothers : (others.map Membership.entry).Nodup)
    (hsame : ∀ entry ∈ whitelist.teams, ⟨entry, .member⟩ ∈ others ↔ ⟨entry, .member⟩ ∈ results) :
    evaluate user whitelist (Membership.facts others) =
      evaluate user whitelist (Membership.facts results) := by
  refine evaluate_congr fun entry hentry ↦ ?_
  rw [Bool.eq_iff_iff, holds_facts_iff_mem hothers, holds_facts_iff_mem hresults]
  exact hsame entry hentry

/-- More rules and more confirmed entries refuse nobody who could pass before. -/
theorem allowed_of_extends {larger : Whitelist} (hothers : (others.map Membership.entry).Nodup)
    (hlarger : larger.Extends whitelist)
    (hconfirmed : ∀ m ∈ results, m.standing = .member → m ∈ others)
    (h : (evaluate user whitelist (Membership.facts results)).allowed = true) :
    (evaluate user larger (Membership.facts others)).allowed = true := by
  rw [allowed_evaluate_facts_iff hothers]
  rcases (allowed_evaluate_facts_iff hresults).mp h with hall | hnames | hcovers | hteams
  · exact .inl (hlarger.allowAll hall)
  · exact .inr (.inl ⟨hnames.1, hlarger.users hnames.2⟩)
  · obtain ⟨domain, hemail, hcovered⟩ := hcovers
    refine .inr (.inr (.inl ⟨domain, hemail, ?_⟩))
    obtain ⟨d, hd, hne, l, hl, hwithin⟩ := EmailDomain.isCovered_iff.mp hcovered
    exact EmailDomain.isCovered_iff.mpr ⟨d, hd, hne, l, hlarger.domains hl, hwithin⟩
  · obtain ⟨entry, hentry, hmember⟩ := hteams
    exact .inr (.inr (.inr ⟨entry, hlarger.teams hentry, hconfirmed _ hmember rfl⟩))

end Answers

/-- For answers about distinct entries: a user may pass exactly if everybody may, they are named,
their domain is covered, or a listed entry is confirmed, and the reason is that of the first of
these rules, which for teams is the first confirmed entry. Answers that confirm nothing or nothing
that is listed, and the order of the answers, do not matter. A larger whitelist and further
confirmations refuse nobody. Verifying gives this decision, or refuses by name and for its
reason. -/
theorem evaluate_follows_rules {user : User} {whitelist : Whitelist} {results : List Membership}
    (hresults : (results.map Membership.entry).Nodup) :
    let decision := evaluate user whitelist (Membership.facts results)
    (decision.allowed = true ↔ whitelist.allowAll = true ∨ whitelist.Names user ∨
        (∃ domain, whitelist.Covers user domain) ∨ whitelist.Confirms results) ∧
      Verdict user whitelist results decision.allowed decision.reason ∧
      (∀ others : List Membership, (others.map Membership.entry).Nodup →
        (∀ m : Membership, m.standing = .member → m.entry ∈ whitelist.teams →
          (m ∈ others ↔ m ∈ results)) →
        evaluate user whitelist (Membership.facts others) = decision) ∧
      (∀ (larger : Whitelist) (others : List Membership), (others.map Membership.entry).Nodup →
        larger.Extends whitelist → (∀ m ∈ results, m.standing = .member → m ∈ others) →
        decision.allowed = true →
          (evaluate user larger (Membership.facts others)).allowed = true) ∧
      (decision.allowed = true →
        verify user whitelist (Membership.facts results) = .ok decision) ∧
      (decision.allowed = false → verify user whitelist (Membership.facts results) =
        .error (.denied user.username decision.reason)) := by
  intro decision
  refine ⟨allowed_evaluate_facts_iff hresults, verdict_evaluate hresults, ?_, ?_, ?_, ?_⟩
  · intro others hothers hsame
    exact evaluate_facts_congr hresults hothers fun entry hentry ↦ hsame ⟨entry, .member⟩ rfl hentry
  · intro larger others hothers hlarger hconfirmed hallowed
    exact allowed_of_extends hresults hothers hlarger hconfirmed hallowed
  · intro hallowed
    exact if_pos hallowed
  · intro hrefused
    exact if_neg (Bool.eq_false_iff.mp hrefused)

/-- The first listed entry came to no standing, and the second one decides. -/
theorem evaluate_follows_rules_team :
    let user : User := { username := "alice", email := "alice@corp.example.org" }
    let whitelist : Whitelist := {
      users := ["bob"], domains := ["corp.example"], teams := ["acme", "acme/devs", "other"] }
    let results : List Membership :=
      [⟨"elsewhere", .member⟩, ⟨"acme/devs", .member⟩, ⟨"acme", .failed (.general "boom")⟩]
    (results.map Membership.entry).Nodup ∧
      verify user whitelist (Membership.facts results) = .ok (.team "acme/devs") := by
  intro user whitelist results
  have hresults : (results.map Membership.entry).Nodup := by decide
  have hdecision : evaluate user whitelist (Membership.facts results) = .team "acme/devs" := by
    decide +kernel
  obtain ⟨-, -, -, -, hverify, -⟩ := @evaluate_follows_rules user whitelist results hresults
  rw [hdecision] at hverify
  exact ⟨hresults, hverify rfl⟩

end Admission
