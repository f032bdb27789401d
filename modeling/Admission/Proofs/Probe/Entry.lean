import Admission.Fault
import Admission.Proofs.Probe.Address
import Admission.Proofs.Probe.Verdict

/-!
# Entries and the groups they name

An entry names a group exactly if it is spelled as one: as a name, or as two names with a slash
between them, where a name is not empty and holds no slash (`Group.read_eq_ok_iff`). So the entry is
what is written for the group it names, and a text with a slash is never taken for an organization.
Whatever is spelled in another way is at fault, and nothing is asked about it
(`Probe.probeEntry_grammar`).
-/

set_option autoImplicit false
set_option relaxedAutoImplicit false

namespace Admission

/-- A name of an organization or a team. -/
structure IsName (name : String) : Prop where
  nonempty : name ≠ ""
  slashless : '/' ∉ name.toList

/-- How the entries of groups are spelled. -/
inductive Group.IsSpelled : Group → String → Prop
  | organization {org : String} : IsName org → IsSpelled (.organization org) org
  | team {org name : String} :
    IsName org → IsName name → IsSpelled (.team org name) (org ++ "/" ++ name)

/-! ### Names as parts of entries -/

theorem IsName.isEmpty {name : String} (h : IsName name) : name.toList.isEmpty = false := by
  rw [List.isEmpty_eq_false_iff]
  exact fun hempty ↦ h.nonempty (String.toList_inj.mp hempty)

/-- A part between slashes is a name unless it is empty. -/
theorem isName_ofList {part : List Char} (hpart : '/' ∉ part) (hempty : part.isEmpty = false) :
    IsName (String.ofList part) := by
  constructor
  · intro h
    rw [← String.toList_inj, String.toList_ofList] at h
    rw [h] at hempty
    cases hempty
  · rwa [String.toList_ofList]

theorem toList_joined (org name : String) :
    (org ++ "/" ++ name).toList = ['/'].intercalate [org.toList, name.toList] := by
  simp [List.intercalate_cons_cons]

namespace Group

variable {group : Group} {entry : String}

theorem ofEntry?_of_isSpelled (h : group.IsSpelled entry) : ofEntry? entry = some group := by
  unfold ofEntry?
  cases h with
  | organization horg =>
    have hsplit : entry.toList.splitOn '/' = [entry.toList] := by
      have hone := List.splitOn_intercalate '/' (List.forall_mem_singleton.mpr horg.slashless)
        (List.cons_ne_nil _ _)
      rwa [List.intercalate_singleton] at hone
    simp only [hsplit, horg.isEmpty, Bool.false_eq_true, if_false, String.ofList_toList]
  | @team org name horg hname =>
    have hsplit : (org ++ "/" ++ name).toList.splitOn '/' = [org.toList, name.toList] := by
      rw [toList_joined]
      exact List.splitOn_intercalate '/' (by simpa using ⟨horg.slashless, hname.slashless⟩)
        (List.cons_ne_nil _ _)
    simp only [hsplit, horg.isEmpty, hname.isEmpty, Bool.or_self, Bool.false_eq_true, if_false,
      String.ofList_toList]

theorem isSpelled_of_named (h : ofEntry? entry = some group) : group.IsSpelled entry := by
  have hparts {part : List Char} (hpart : part ∈ entry.toList.splitOn '/') : '/' ∉ part :=
    Url.not_mem_of_mem_splitOn hpart
  have hjoined : ['/'].intercalate (entry.toList.splitOn '/') = entry.toList :=
    List.intercalate_splitOn '/'
  unfold ofEntry? at h
  split at h
  · rename_i org hsplit
    split at h
    · cases h
    · rename_i horg
      cases h
      have hentry : String.ofList org = entry := by
        rw [← String.toList_inj, String.toList_ofList, ← hjoined, hsplit,
          List.intercalate_singleton]
      have hname : IsName (String.ofList org) :=
        isName_ofList (hparts (by simp [hsplit])) (Bool.eq_false_iff.mpr horg)
      rw [← hentry]
      exact .organization hname
  · rename_i org name hsplit
    split at h
    · cases h
    · rename_i hnone
      rw [Bool.or_eq_true, not_or, Bool.not_eq_true, Bool.not_eq_true] at hnone
      cases h
      have hentry : String.ofList org ++ "/" ++ String.ofList name = entry := by
        rw [← String.toList_inj, toList_joined, String.toList_ofList, String.toList_ofList,
          ← hjoined, hsplit]
      rw [← hentry]
      exact .team (isName_ofList (hparts (by simp [hsplit])) hnone.1)
        (isName_ofList (hparts (by simp [hsplit])) hnone.2)
  · cases h

/-- An entry names a group exactly if it is spelled as one. -/
theorem read_eq_ok_iff : read entry = .ok group ↔ group.IsSpelled entry := by
  unfold read
  constructor
  · intro h
    split at h
    · rename_i hentry
      cases h
      exact isSpelled_of_named hentry
    · cases h
  · intro h
    rw [ofEntry?_of_isSpelled h]

theorem ofEntry?_eq_none (h : ∀ group : Group, ¬group.IsSpelled entry) : ofEntry? entry = none := by
  rw [Option.eq_none_iff_forall_ne_some]
  exact fun group hgroup ↦ h group (isSpelled_of_named hgroup)

/-- An entry is what is written for the group it names, from names only. -/
theorem IsSpelled.entry_eq (h : group.IsSpelled entry) :
    group.entry = entry ∧ ∀ name ∈ group.names, IsName name := by
  cases h with
  | organization horg => exact ⟨rfl, by simpa [names] using horg⟩
  | team horg hname => exact ⟨rfl, by simpa [names] using ⟨horg, hname⟩⟩

end Group

/-- Exactly the entries that are spelled as groups are read, each as the group it is written for.
Every other one is at fault, whoever probes it: nothing is sent or counted, no time passes, the
fault is noticed, and the answer is that the user is no member. -/
theorem Probe.probeEntry_grammar (entry : String) :
    (∀ group, Group.read entry = .ok group ↔ group.IsSpelled entry) ∧
      (∀ group, Group.read entry = .ok group →
        group.entry = entry ∧ ∀ name ∈ group.names, IsName name) ∧
      ((∀ group : Group, ¬group.IsSpelled entry) →
        Group.read entry = .error (.malformedEntry entry) ∧
          ∀ {σ : Type} (responder : Responder σ) (settings : ProviderSettings) (user : User)
            (token : Tokens) (last : Option Rat) (now : Rat) (state : σ),
            let probe := probeEntry responder settings user token entry last now state
            probe.outcome = .answers [⟨entry, .notMember⟩] ∧
              probe.trace = [⟨now, .noticed (.malformedEntry entry)⟩] ∧
              probe.trace.requests = [] ∧ probe.trace.counts = [] ∧
              probe.time = now ∧ probe.state = state) := by
  refine ⟨fun _ ↦ Group.read_eq_ok_iff,
    fun _ hread ↦ (Group.read_eq_ok_iff.mp hread).entry_eq, fun hnone ↦ ?_⟩
  have hentry : Group.ofEntry? entry = none := Group.ofEntry?_eq_none hnone
  refine ⟨by rw [Group.read, hentry], fun responder settings user token last now state ↦ ?_⟩
  have hprobe : probeEntry responder settings user token entry last now state =
      { time := now, state, trace := [⟨now, .noticed (.malformedEntry entry)⟩]
        outcome := .answers [⟨entry, .notMember⟩] } := by
    obtain ⟨hprocess, hconclude⟩ := @job_of_none settings user token entry hentry
    unfold probeEntry
    dsimp only
    rw [hprocess]
    unfold closeRun
    rw [hconclude]
    rfl
  rw [hprobe]
  exact ⟨rfl, rfl, rfl, rfl, rfl, rfl⟩

/-- A slash at an end, or a second one, keeps an entry from being one about an organization. -/
example : (["org", "org/team", "org/", "/team", "org/team/", ""].map fun entry ↦
    (Group.read entry).toOption) =
      [some (.organization "org"), some (.team "org" "team"), none, none, none, none] := by
  decide +kernel

end Admission
