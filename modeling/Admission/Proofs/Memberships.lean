import Admission.Login.Basic
import Admission.Proofs.Entries

/-!
# Memberships and the facts made of them

The answers of the probes are turned into facts, one for each entry, and the confirmed ones are
added to the user: `grant_eq` says what that makes of the user, and `contains_merge` that the user
is then known to belong to exactly the entries that were known before or that the facts confirm.
-/

set_option autoImplicit false
set_option relaxedAutoImplicit false

namespace Admission

namespace Membership

/-! ### Facts -/

/-- There is one fact for each entry. -/
theorem nodup_facts (results : List Membership) : ((facts results).map Prod.fst).Nodup :=
  Entries.nodup_update _ List.nodup_nil

/-- Answers for distinct entries are facts as they stand. -/
theorem facts_eq {results : List Membership} (h : (results.map entry).Nodup) :
    facts results = results.map fun m ↦ (m.entry, m.isMember) := by
  unfold facts
  rw [Entries.update_of_nodup, List.nil_append]
  rwa [List.nil_append, List.map_map]

/-- The entries that some answers confirm, in the order of the answers. -/
def confirmed (results : List Membership) : List String :=
  ((facts results).filter Prod.snd).map Prod.fst

/-- Answers about distinct entries confirm those entries that an answer calls a membership, in their
order. -/
theorem confirmed_eq_filter {results : List Membership} {entries : List String}
    (hentries : results.map entry = entries) (hnodup : entries.Nodup) :
    confirmed results = entries.filter fun e ↦ results.contains ⟨e, .member⟩ := by
  subst hentries
  have hmember : ∀ m ∈ results, m.isMember = results.contains ⟨m.entry, .member⟩ := by
    intro m hm
    rw [Bool.eq_iff_iff, List.contains_iff_mem]
    constructor
    · intro h
      have hstanding : m.standing = .member := of_decide_eq_true h
      rwa [← hstanding]
    · intro h
      have hsame : (⟨m.entry, .member⟩ : Membership) = m :=
        List.inj_on_of_nodup_map hnodup h hm rfl
      rw [← hsame]
      rfl
  unfold confirmed
  rw [facts_eq hnodup, List.filter_map, List.map_map, List.filter_map]
  exact congrArg (List.map entry) (List.filter_congr hmember)

end Membership

namespace Decision

/-- Facts with distinct names hold of the entries that they list as true. -/
theorem holds_iff_mem {facts : List (String × Bool)} (h : (facts.map Prod.fst).Nodup)
    {entry : String} : holds facts entry = true ↔ (entry, true) ∈ facts := by
  unfold holds
  induction facts with
  | nil => simp
  | cons fact facts ih =>
    obtain ⟨name, value⟩ := fact
    obtain ⟨hnew, hnodup⟩ := List.nodup_cons.mp h
    by_cases hname : entry = name
    · have hnot : (entry, true) ∉ facts := fun hmem ↦ hnew (hname ▸ List.mem_map.mpr ⟨_, hmem, rfl⟩)
      simp [hname ▸ hnot, hname, eq_comm]
    · have hbeq : (entry == name) = false := beq_eq_false_iff_ne.mpr hname
      rw [List.lookup_cons, hbeq, List.mem_cons]
      simp [hname, ih hnodup]

/-- The facts hold of the confirmed entries. -/
theorem holds_facts (results : List Membership) (entry : String) :
    holds (Membership.facts results) entry = (Membership.confirmed results).contains entry := by
  rw [Bool.eq_iff_iff, holds_iff_mem (Membership.nodup_facts results), List.contains_iff_mem]
  simp [Membership.confirmed]

end Decision

namespace Login

/-! ### Granting memberships -/

/-- Facts with distinct names add those that are true and were not known. -/
theorem foldl_addMembership {facts : List (String × Bool)} (h : (facts.map Prod.fst).Nodup)
    (user : User) :
    facts.foldl (fun u fact ↦ if fact.2 then u.addMembership fact.1 else u) user =
      { user with memberships := user.memberships ++
          ((facts.filter Prod.snd).map Prod.fst).filter fun e ↦ !user.memberships.contains e } := by
  induction facts generalizing user with
  | nil => simp
  | cons fact facts ih =>
    obtain ⟨name, value⟩ := fact
    obtain ⟨hnew, hnodup⟩ := List.nodup_cons.mp h
    rw [List.foldl_cons, ih hnodup]
    by_cases hvalue : value = true
    · by_cases hknown : user.memberships.contains name = true
      · simp [User.addMembership, hvalue, List.contains_iff_mem.mp hknown]
      · have hrest : ((facts.filter Prod.snd).map Prod.fst).filter
            (fun e ↦ !(user.memberships ++ [name]).contains e) =
            ((facts.filter Prod.snd).map Prod.fst).filter fun e ↦ !user.memberships.contains e := by
          refine List.filter_congr fun e he ↦ ?_
          have hne : e ≠ name := by
            rintro rfl
            exact hnew ((List.filter_sublist.map Prod.fst).subset he)
          simp [hne]
        have hunknown : user.memberships.contains name = false := Bool.eq_false_iff.mpr hknown
        simp only [User.addMembership, hvalue, hunknown, if_true, Bool.false_eq_true, if_false,
          hrest, List.filter_cons, List.map_cons, Bool.not_false, List.append_assoc,
          List.singleton_append]
    · simp [hvalue]

/-- Some memberships, and behind them those of others that were not among them. -/
def merge (earlier confirmed : List String) : List String :=
  earlier ++ confirmed.filter fun e ↦ !earlier.contains e

@[simp] theorem merge_nil (confirmed : List String) : merge [] confirmed = confirmed := by
  simp [merge]

theorem contains_merge (earlier confirmed : List String) (entry : String) :
    (merge earlier confirmed).contains entry =
      (earlier.contains entry || confirmed.contains entry) := by
  unfold merge
  rw [Bool.eq_iff_iff]
  simp only [List.mem_append, List.mem_filter, Bool.or_eq_true, Bool.not_eq_true',
    List.contains_eq_mem, decide_eq_false_iff_not, decide_eq_true_eq]
  tauto

/-- Granting puts the confirmed entries behind the memberships, and changes nothing else. -/
theorem grant_eq (user : User) (results : List Membership) :
    grant user results =
      { user with memberships := merge user.memberships (Membership.confirmed results) } :=
  foldl_addMembership (Membership.nodup_facts results) user

/-- Of the listed entries, the facts for a decision hold where the user is known to belong. -/
theorem holds_knownFacts {settings : Settings} {user : User} {entry : String}
    (h : entry ∈ settings.whitelist.teams) :
    Decision.holds (knownFacts settings user) entry = user.memberships.contains entry := by
  unfold knownFacts Decision.holds
  generalize settings.whitelist.teams = teams at h
  induction teams with
  | nil => cases h
  | cons team teams ih =>
    by_cases hteam : entry = team
    · simp [hteam]
    · rw [List.map_cons, List.lookup_cons]
      have hbeq : (entry == team) = false := beq_eq_false_iff_ne.mpr hteam
      rw [hbeq]
      exact ih ((List.mem_cons.mp h).resolve_left hteam)

end Login

end Admission
