import Admission.Proofs.Pool.Calls

/-!
# Where a result stops a pool

A run that a result may break is compared with the unbroken run of the same jobs. Both do the same
until the call looks at an end that breaks the pool (`leads_parting`). Then one of them comes to no
further end (`Spent`), and the other one goes on. So the ends of the run are the first ones of the
unbroken run, and those that it has not come to are no earlier than a breaking one
(`exists_ended_append`).
-/

set_option autoImplicit false
set_option relaxedAutoImplicit false

namespace Admission.Pool

variable {σ α β : Type} {rules : Rules σ β} {pool after : Pool σ α β} {halt : Halt}

/-- The same rules, except that no result breaks the pool. -/
def Rules.unbroken (rules : Rules σ β) : Rules σ β :=
  { rules with breaks := fun _ ↦ false }

theorem isBroken_unbroken (rules : Rules σ β) (pool : Pool σ α β) :
    pool.isBroken rules.unbroken = false := by
  simp [isBroken, Rules.unbroken]

/-! ### Up to the parting -/

/-- The call is about to look at an end that breaks the pool. -/
def Parts (rules : Rules σ β) (pool : Pool σ α β) : Prop :=
  pool.call = .called ∧ pool.isBroken rules = true ∧ ∃ agenda, pool.agenda = .collects :: agenda

/-- Looking at ends that do not break the pool does not depend on what breaks it. -/
theorem collect_unbroken (h : pool.call = .called → pool.isBroken rules = false) :
    pool.collect rules.unbroken = pool.collect rules := by
  unfold collect
  split
  · rename_i hcall
    rw [h hcall, isBroken_unbroken]
  · rfl

/-- Nothing else depends on what breaks a pool. -/
theorem next?_unbroken (h : ¬Parts rules pool) : pool.next? rules.unbroken = pool.next? rules := by
  unfold next?
  split
  · rename_i handle agenda hagenda
    cases handle with
    | collects =>
      refine congrArg some (collect_unbroken fun hcall ↦ Bool.eq_false_iff.mpr fun hbroken ↦ ?_)
      exact h ⟨hcall, hbroken, agenda, hagenda⟩
    | _ => rfl
  · rfl

/-- A run comes to its end, or to the point where it parts from the unbroken one. -/
theorem leads_parting (rules : Rules σ β) (pool : Pool σ α β) :
    ∃ later, (later.next? rules = none ∧ ¬Parts rules later ∨ Parts rules later) ∧
      Leads rules pool later ∧ Leads rules.unbroken pool later := by
  obtain ⟨later, hlater, hway⟩ := leads_until rules (Parts rules) pool
  refine ⟨later, ?_, Relation.ReflTransGen.mono (fun _ _ h ↦ h.2) _ _ hway,
    Relation.ReflTransGen.mono (fun _ _ h ↦ (next?_unbroken h.1).trans h.2) _ _ hway⟩
  by_cases hparts : Parts rules later
  · exact .inr hparts
  · exact .inl ⟨hlater.resolve_right hparts, hparts⟩

/-! ### After the parting -/

/-- No job goes on any more, and the call is left for some reason or will be. -/
structure Spent (halt : Halt) (pool : Pool σ α β) : Prop where
  queue : pool.queue = []
  running : pool.running = []
  agenda : ∀ next ∈ pool.agenda, next.isLive = false
  call : pool.call = .gathers halt ∨ ∃ time, pool.call = .left halt time

theorem Spent.minds (h : Spent halt pool) {handle : Handle α β} (hjob : handle.job? = none) :
    Spent halt (pool.perform rules handle) := by
  rcases h.call with hgathers | ⟨time, hleft⟩
  · cases handle with
    | arrives => cases hjob
    | resumes => cases hjob
    | drops => cases hjob
    | gathers =>
      rw [perform, gather_of_gathers hgathers]
      split
      · exact ⟨h.queue, h.running, h.agenda, .inr ⟨_, rfl⟩⟩
      · exact h
    | _ =>
      rw [perform_eq_self hjob (by rw [hgathers]; rfl)]
      exact h
  · rw [perform_of_left hleft hjob]
    exact h

/-- Whatever happens next, no job ends. -/
theorem Spent.next (h : Spent halt pool) (hnext : pool.next? rules = some after) :
    Spent halt after ∧ after.ended = pool.ended := by
  rcases next?_cases hnext with ⟨handle, agenda, hagenda, rfl⟩ | ⟨hagenda, time, htime, rfl⟩
  · have hlive : handle.isLive = false := h.agenda _ (hagenda ▸ List.mem_cons_self)
    have hrest : Spent halt { pool with agenda } :=
      ⟨h.queue, h.running, fun next hmem ↦ h.agenda next (hagenda ▸ List.mem_cons_of_mem _ hmem),
        h.call⟩
    cases handle with
    | arrives => cases hlive
    | resumes => cases hlive
    | drops position holds =>
      obtain ⟨free, released, dropped, hdrop⟩ := exists_drop hrest.queue position holds
      rw [perform, hdrop]
      exact ⟨⟨hrest.queue, hrest.running, hrest.agenda, hrest.call⟩, rfl⟩
    | reports number => exact ⟨hrest.minds rfl, (minds_report ..).ended⟩
    | collects => exact ⟨hrest.minds rfl, (minds_collect ..).ended⟩
    | cancels => exact ⟨hrest.minds rfl, (minds_giveUp ..).ended⟩
    | gathers => exact ⟨hrest.minds rfl, (minds_gather ..).ended⟩
  · -- nothing waits for an instant, so that the clock goes on only for the call
    have hadvance : pool.advance time = callOff { pool with now := time, running := [] } := by
      unfold advance
      rw [h.running]
      rfl
    have hminds : Minds { pool with now := time, running := [] } (pool.advance time) :=
      hadvance ▸ minds_callOff _
    obtain ⟨agenda, running, cancelAt, hafter⟩ := exists_advance pool time
    refine ⟨⟨?_, List.subset_nil.mp hminds.running, fun next hmem ↦ ?_, ?_⟩, hminds.ended⟩
    · rw [hafter]
      exact h.queue
    · exact (hminds.enters next hmem).elim (h.agenda next) id
    · rw [hafter]
      exact h.call

theorem spent_of_closing (h : Closing pool) (hcall : pool.call = .gathers halt) :
    Spent halt pool := by
  refine ⟨h.queue, h.running, fun next hmem ↦ ?_, .inl hcall⟩
  obtain ⟨drops, hshape, hdrops⟩ := h.agenda
  rw [hshape] at hmem
  rcases List.mem_append.mp hmem with hmem | hmem
  · obtain ⟨position, holds, hdrop⟩ := hdrops next hmem
    rw [hdrop]
    rfl
  · rw [List.mem_singleton.mp hmem]
    rfl

/-- What parts from the unbroken run is left as broken, and comes to no further end. -/
theorem Parts.play {later : Pool σ α β} (h : Parts rules later) :
    (play rules later).ended = later.ended ∧
      ((play rules later).call = .gathers .broken ∨
        ∃ time, (play rules later).call = .left .broken time) := by
  obtain ⟨hcall, hbroken, agenda, hagenda⟩ := h
  let cancelled : Pool σ α β := cancel { later with agenda } .broken
  have hnext : later.next? rules = some cancelled := by
    unfold next?
    rw [hagenda]
    have hcalled : call { later with agenda } = .called := hcall
    exact congrArg some ((collect_of_called hcalled).trans (if_pos hbroken))
  have hspent : Spent .broken cancelled := spent_of_closing (closing_cancel ..) rfl
  have hplay : Spent .broken (Pool.play rules later) ∧
      (Pool.play rules later).ended = later.ended := by
    rw [play_of_next?_eq_some hnext]
    exact (leads_play rules cancelled).1.keeps
      (P := fun pool ↦ Spent .broken pool ∧ pool.ended = later.ended)
      (fun _ _ hnext hpool ↦ ⟨(hpool.1.next hnext).1, (hpool.1.next hnext).2.trans hpool.2⟩)
      ⟨hspent, rfl⟩
  exact ⟨hplay.2, hplay.1.call⟩

/-! ### Whole runs -/

section Run

variable {now : Rat} {state : σ} {jobs : List (Job α β)}

/-- A run that may break is the unbroken one, or it parts from it. -/
theorem run_parting (rules : Rules σ β) (now : Rat) (state : σ) (jobs : List (Job α β)) :
    run rules none now state jobs = run rules.unbroken none now state jobs ∨
      ∃ later, Parts rules later ∧ Leads rules (opened rules none now state jobs) later ∧
        (run rules none now state jobs).1 = play rules later ∧
        (run rules.unbroken none now state jobs).1 = play rules.unbroken later := by
  obtain ⟨later, hlater, hleads, hunbroken⟩ :=
    leads_parting rules (opened rules none now state jobs)
  rcases hlater with ⟨hnone, hnot⟩ | hparts
  · left
    have hplay : play rules (opened rules none now state jobs) =
        play rules.unbroken (opened rules.unbroken none now state jobs) := by
      have hnone' : later.next? rules.unbroken = none := (next?_unbroken hnot).trans hnone
      show _ = play rules.unbroken (opened rules none now state jobs)
      rw [play_of_leads hleads, play_of_leads hunbroken, play_of_next?_eq_none hnone,
        play_of_next?_eq_none hnone']
    unfold run
    rw [hplay]
  · exact .inr ⟨later, hparts, hleads, play_of_leads hleads, play_of_leads hunbroken⟩

/-- If no job waits without end in the unbroken run, the one that results may break is completed or
broken. -/
theorem completed_or_broken (hslots : 1 ≤ rules.slots)
    (hfinite : ∀ r ∈ (run rules.unbroken none now state jobs).1.running, r.due ≠ none) :
    (run rules none now state jobs).2 = .completed ∨
      (run rules none now state jobs).2 = .broken := by
  rcases hhalt : (run rules none now state jobs).2 with _ | _ | _ | _
  · exact .inl rfl
  · exact .inr rfl
  · exact absurd hhalt ne_cancelled
  · exfalso
    rcases run_parting rules now state jobs with hrun | ⟨later, hparts, -, hplay, -⟩
    · obtain ⟨r, hr, hdue⟩ := exists_of_stuck hslots hhalt
      rw [hrun] at hr
      exact hfinite r hr hdue
    · rcases hparts.play.2 with hgathers | ⟨time, hleft⟩
      · exact run_ne_gathers (hplay ▸ hgathers)
      · have hstuck : (run rules none now state jobs).1.halt = .stuck := hhalt
        unfold halt at hstuck
        rw [hplay, hleft] at hstuck
        cases hstuck

/-- Every job of an unbroken run comes to its end if none of them waits without end, and it does so
once. -/
theorem positions_perm_unbroken (hslots : 1 ≤ rules.slots)
    (hfinite : ∀ r ∈ (run rules.unbroken none now state jobs).1.running, r.due ≠ none) :
    ((run rules.unbroken none now state jobs).1.ended.map Ended.position).Perm
      (List.range jobs.length) := by
  refine positions_perm_of_completed ?_
  rcases hhalt : (run rules.unbroken none now state jobs).2 with _ | _ | _ | _
  · rfl
  · have hbroken := isBroken_of_broken hhalt
    rw [isBroken_unbroken] at hbroken
    cases hbroken
  · exact absurd hhalt ne_cancelled
  · have hslots' : 1 ≤ rules.unbroken.slots := hslots
    obtain ⟨r, hr, hdue⟩ := exists_of_stuck hslots' hhalt
    exact absurd hdue (hfinite r hr)

/-- The ends of a run are the first ones of the unbroken run. If there are more of them, the run is
broken, and they are no earlier than an end that breaks it. -/
theorem exists_ended_append (rules : Rules σ β) (now : Rat) (state : σ) (jobs : List (Job α β)) :
    ∃ more, (run rules.unbroken none now state jobs).1.ended =
        (run rules none now state jobs).1.ended ++ more ∧
      ∀ e ∈ more, ∃ first ∈ (run rules none now state jobs).1.ended,
        rules.breaks first.result = true ∧ first.time ≤ e.time := by
  rcases run_parting rules now state jobs with hrun | ⟨later, hparts, hleads, hplay, hcourse⟩
  · exact ⟨[], by rw [hrun, List.append_nil], nofun⟩
  · obtain ⟨first, hfirst, hbreaks⟩ := List.any_eq_true.mp hparts.2.1
    obtain ⟨-, -, more, hended, htimes⟩ :=
      (leads_play rules.unbroken later).1.ended_append hleads.ahead
    rw [hcourse, hplay, hparts.play.1]
    refine ⟨more, hended, fun e he ↦ ⟨first, hfirst, hbreaks, ?_⟩⟩
    rw [hleads.breaks_now first hfirst hbreaks]
    exact htimes e he

/-- No end of a run is later than one that breaks it. -/
theorem time_le_of_breaks {last : Option Rat} {e first : Ended β}
    (he : e ∈ (run rules last now state jobs).1.ended)
    (hfirst : first ∈ (run rules last now state jobs).1.ended)
    (hbreaks : rules.breaks first.result = true) : e.time ≤ first.time := by
  have hleads := (leads_run rules last now state jobs).1
  rw [hleads.breaks_now first hfirst hbreaks]
  exact hleads.past.ended e he

end Run

end Admission.Pool
