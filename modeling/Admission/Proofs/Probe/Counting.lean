import Admission.Proofs.Pool.Counting
import Admission.Proofs.Probe.Answers

/-!
# What probes count

A probe of an entry that names a group is counted once, when it ends with a standing, by the kind of
the group and that standing (`tally`). A fan-out counts its probes so, in the order of their ends,
and nothing else (`counts_fanOut`): no entry that names no group, no probe with a fault, and none
that did not end.
-/

set_option autoImplicit false
set_option relaxedAutoImplicit false

namespace Admission.Probe

/-- What is counted when a probe ends: its standing, if the entry names a group. -/
def tally : Except Fault Membership → List Count
  | .ok m => ((Group.ofEntry? m.entry).map fun group ↦ .probe group.kind m.standing.name).toList
  | .error _ => []

theorem mem_tally {result : Except Fault Membership} {c : Count} (h : c ∈ tally result) :
    ∃ m group, result = .ok m ∧ Group.ofEntry? m.entry = some group ∧
      c = .probe group.kind m.standing.name := by
  rcases result with f | m
  · cases h
  · obtain ⟨group, hgroup, hc⟩ := Option.map_eq_some_iff.mp (Option.mem_toList.mp h)
    exact ⟨m, group, rfl, hgroup, hc.symm⟩

theorem job_tallies (settings : ProviderSettings) (user : User) (token : Tokens) (entry : String) :
    Pool.Tallies tally (job settings user token entry).conclude := by
  unfold job
  split
  · rename_i hnone
    exact fun _ ↦ by simp [malformed, tally, Occurrence.counts, hnone]
  · rename_i group hgroup
    intro answer
    dsimp only [conclude]
    rcases standing settings entry answer with f | s
    · rfl
    · dsimp only [closingNotes, tally]
      rw [hgroup]
      cases s <;> rfl

variable {σ : Type}

/-- A fan-out counts the ends of its probes. -/
theorem counts_fanOut (responder : Responder σ) (settings : Settings) (user : User)
    (token : Tokens) (last : Option Rat) (now : Rat) (state : σ) :
    (fanOut responder settings user token last now state).trace.counts =
      (halted responder settings user token now state last).1.ended.flatMap fun e ↦
        tally e.result := by
  refine (Pool.leads_run (rules responder settings.provider) last now state _).1.tallied
    jobs_budget_nonneg fun j hj ↦ ?_
  obtain ⟨entry, -, rfl⟩ := List.mem_map.mp hj
  exact job_tallies settings.provider user token entry

end Admission.Probe
