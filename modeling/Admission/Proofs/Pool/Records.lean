import Admission.Proofs.Pool.Steps

/-!
# The records of a pool

A pool records which jobs got a slot and gave it back, which of them ended, and all that can be
observed, each with its instant. The records only grow, at the present instant, and the clock is
never turned back (`Grows`).

`Works` says what jobs can do to a pool at one instant, whatever they are: the call stays where it
is, what is on the agenda stays there, and every end is reported.
-/

set_option autoImplicit false
set_option relaxedAutoImplicit false

namespace Admission

/-- A list with more entries behind it, all of some instant. -/
def GrowsAt {γ : Type} (instant : γ → Rat) (time : Rat) (before after : List γ) : Prop :=
  ∃ more, after = before ++ more ∧ ∀ x ∈ more, instant x = time

namespace GrowsAt

variable {γ : Type} {instant : γ → Rat} {time : Rat} {before middle after : List γ}

theorem refl (instant : γ → Rat) (time : Rat) (xs : List γ) : GrowsAt instant time xs xs :=
  ⟨[], (List.append_nil xs).symm, nofun⟩

theorem append {more : List γ} (h : ∀ x ∈ more, instant x = time) :
    GrowsAt instant time before (before ++ more) :=
  ⟨more, rfl, h⟩

theorem trans (h : GrowsAt instant time before middle) (h' : GrowsAt instant time middle after) :
    GrowsAt instant time before after := by
  obtain ⟨first, rfl, hfirst⟩ := h
  obtain ⟨more, rfl, hmore⟩ := h'
  exact ⟨first ++ more, List.append_assoc .., List.forall_mem_append.mpr ⟨hfirst, hmore⟩⟩

/-- What there was before is there after. -/
theorem sublist (h : GrowsAt instant time before after) : before.Sublist after := by
  obtain ⟨more, rfl, -⟩ := h
  exact List.sublist_append_left ..

/-- What was no later than now is no later than what comes now. -/
theorem forall_le (h : GrowsAt instant time before after)
    (hbefore : ∀ x ∈ before, instant x ≤ time) : ∀ x ∈ after, instant x ≤ time := by
  obtain ⟨more, rfl, hmore⟩ := h
  exact List.forall_mem_append.mpr ⟨hbefore, fun x hx ↦ (hmore x hx).le⟩

end GrowsAt

namespace Pool

variable {σ α β : Type} {rules : Rules σ β} {pool middle after : Pool σ α β}

/-! ### What jobs do -/

/-- What jobs do to a pool at one instant. -/
structure Works (pool after : Pool σ α β) : Prop where
  now : after.now = pool.now
  call : after.call = pool.call
  cancelAt : after.cancelAt = pool.cancelAt
  dropped : after.dropped = pool.dropped
  running : ∀ r ∈ after.running, r ∈ pool.running ∨ Process.isOver r.due pool.now = false
  agenda : pool.agenda ⊆ after.agenda
  enters : ∀ next ∈ after.agenda, next ∈ pool.agenda ∨ (∃ r inTime, next = .resumes r inTime) ∨
    ∃ number, next = .reports number
  begun : GrowsAt Stamp.time pool.now pool.begun after.begun
  released : GrowsAt Stamp.time pool.now pool.released after.released
  ended : GrowsAt Ended.time pool.now pool.ended after.ended
  trace : GrowsAt Event.time pool.now pool.trace after.trace
  reports : ∀ number, pool.ended.length ≤ number → number < after.ended.length →
    .reports number ∈ after.agenda

namespace Works

theorem refl (pool : Pool σ α β) : Works pool pool where
  now := rfl
  call := rfl
  cancelAt := rfl
  dropped := rfl
  running := fun _ hr ↦ .inl hr
  agenda := List.Subset.refl _
  enters := fun _ h ↦ .inl h
  begun := .refl ..
  released := .refl ..
  ended := .refl ..
  trace := .refl ..
  reports := fun _ hle hlt ↦ absurd hlt (not_lt.mpr hle)

theorem trans (h : Works pool middle) (h' : Works middle after) : Works pool after where
  now := h'.now.trans h.now
  call := h'.call.trans h.call
  cancelAt := h'.cancelAt.trans h.cancelAt
  dropped := h'.dropped.trans h.dropped
  running := fun r hr ↦ (h'.running r hr).elim (h.running r) fun hover ↦ .inr (h.now ▸ hover)
  agenda := fun _ hnext ↦ h'.agenda (h.agenda hnext)
  enters := fun next hnext ↦ (h'.enters next hnext).elim (h.enters next) .inr
  begun := h.begun.trans (h.now ▸ h'.begun)
  released := h.released.trans (h.now ▸ h'.released)
  ended := h.ended.trans (h.now ▸ h'.ended)
  trace := h.trace.trans (h.now ▸ h'.trace)
  reports := by
    intro number hle hlt
    by_cases hmiddle : number < middle.ended.length
    · exact h'.agenda (h.reports number hle hmiddle)
    · exact h'.reports number (not_lt.mp hmiddle) hlt

end Works

theorem works_schedule_resumes (pool : Pool σ α β) (r : Running α β) (inTime : Bool) :
    Works pool (pool.schedule (.resumes r inTime)) :=
  { Works.refl pool with
    agenda := fun _ hnext ↦ mem_schedule_iff.mpr (.inr hnext)
    enters := by
      intro next hnext
      rcases mem_schedule_iff.mp hnext with rfl | hnext
      · exact .inr (.inl ⟨r, inTime, rfl⟩)
      · exact .inl hnext
    reports := fun _ hle hlt ↦ absurd hlt (not_lt.mpr hle) }

theorem works_pass (pool : Pool σ α β) (r : Running α β) (inTime : Bool) :
    Works pool (pool.pass r inTime) :=
  works_schedule_resumes ..

theorem works_await (pool : Pool σ α β) (r : Running α β) : Works pool (pool.await r) := by
  unfold await
  split
  · exact works_pass ..
  · rename_i hover
    refine { Works.refl pool with running := fun s hs ↦ ?_ }
    rcases List.mem_append.mp hs with hs | hs
    · exact .inl hs
    · rw [List.mem_singleton.mp hs]
      exact .inr (Bool.eq_false_iff.mpr hover)

theorem works_grant (pool : Pool σ α β) (position : Nat) (job : Job α β) :
    Works pool (pool.grant position job) := by
  have hbegun : Works pool { pool with begun := pool.begun ++ [⟨position, pool.now⟩] } :=
    { Works.refl pool with begun := .append fun _ hx ↦ by rw [List.mem_singleton.mp hx] }
  exact hbegun.trans (works_schedule_resumes ..)

theorem works_release (pool : Pool σ α β) (position : Nat) :
    Works pool (pool.release position) := by
  have hreleased : GrowsAt Stamp.time pool.now pool.released
      (pool.released ++ [⟨position, pool.now⟩]) :=
    .append fun _ hx ↦ by rw [List.mem_singleton.mp hx]
  rcases hqueue : pool.queue with _ | ⟨⟨next, job⟩, queue⟩
  · rw [release_of_nil hqueue]
    exact { Works.refl pool with released := hreleased }
  · rw [release_of_cons hqueue]
    have htaken : Works pool
        { pool with released := pool.released ++ [⟨position, pool.now⟩], queue } :=
      { Works.refl pool with released := hreleased }
    exact htaken.trans (works_grant ..)

@[simp] theorem grant_ended (pool : Pool σ α β) (position : Nat) (job : Job α β) :
    (pool.grant position job).ended = pool.ended := rfl

@[simp] theorem release_ended (pool : Pool σ α β) (position : Nat) :
    (pool.release position).ended = pool.ended := by
  unfold release
  dsimp only
  split <;> rfl

@[simp] theorem release_trace (pool : Pool σ α β) (position : Nat) :
    (pool.release position).trace = pool.trace := by
  unfold release
  dsimp only
  split <;> rfl

@[simp] theorem finish_ended (pool : Pool σ α β) (position : Nat)
    (conclusion : List Occurrence × β) :
    (pool.finish position conclusion).ended =
      pool.ended ++ [⟨position, pool.now, conclusion.2⟩] :=
  release_ended ..

theorem works_finish (pool : Pool σ α β) (position : Nat) (conclusion : List Occurrence × β) :
    Works pool (pool.finish position conclusion) := by
  let entered : Pool σ α β := { pool with
    trace := pool.trace ++ conclusion.1.map fun what ↦ ⟨pool.now, what⟩
    ended := pool.ended ++ [⟨position, pool.now, conclusion.2⟩] }
  have hwork : Works entered (entered.release position) := works_release ..
  have htrace : ∀ x ∈ conclusion.1.map fun what ↦ (⟨pool.now, what⟩ : Event), x.time = pool.now :=
    List.forall_mem_map.mpr fun _ _ ↦ rfl
  exact {
    now := hwork.now
    call := hwork.call
    cancelAt := hwork.cancelAt
    dropped := hwork.dropped
    running := hwork.running
    agenda := fun _ hnext ↦ mem_schedule_iff.mpr (.inr (hwork.agenda hnext))
    enters := by
      intro next hnext
      rcases mem_schedule_iff.mp hnext with rfl | hnext
      · exact .inr (.inr ⟨_, rfl⟩)
      · exact hwork.enters next hnext
    begun := hwork.begun
    released := hwork.released
    ended := by
      rw [finish_ended]
      exact .append fun _ hx ↦ by rw [List.mem_singleton.mp hx]
    trace := GrowsAt.trans (.append htrace) hwork.trace
    reports := by
      intro number hle hlt
      rw [finish_ended, List.length_append, List.length_singleton] at hlt
      obtain rfl : number = pool.ended.length := by omega
      exact mem_schedule_iff.mpr (.inl rfl) }

theorem works_carryOn (rules : Rules σ β) (pool : Pool σ α β) (r : Running α β) :
    Works pool (pool.carryOn rules r) := by
  obtain ⟨trace, state, htrace, hcases⟩ := carryOn_cases rules pool r
  have hwork : Works pool { pool with trace := pool.trace ++ trace, state } :=
    { Works.refl pool with trace := .append htrace }
  rcases hcases with ⟨result, h⟩ | ⟨s, -, h⟩
  · rw [h]
    exact hwork.trans (works_finish ..)
  · rw [h]
    exact hwork.trans (works_await ..)

theorem works_resume (rules : Rules σ β) (pool : Pool σ α β) (r : Running α β) (inTime : Bool) :
    Works pool (pool.resume rules r inTime) := by
  unfold resume
  split
  · split
    · exact works_pass ..
    · exact works_carryOn ..
  · exact works_finish ..

theorem works_arrive (rules : Rules σ β) (pool : Pool σ α β) (position : Nat) (job : Job α β) :
    Works pool (pool.arrive rules position job) := by
  unfold arrive
  split
  · have hbegun : Works pool
        { pool with free := pool.free - 1, begun := pool.begun ++ [⟨position, pool.now⟩] } :=
      { Works.refl pool with begun := .append fun _ hx ↦ by rw [List.mem_singleton.mp hx] }
    exact hbegun.trans (works_carryOn ..)
  · exact { Works.refl pool with }

/-- Waiting changes the agenda and the jobs that wait, and nothing else. -/
theorem exists_await (pool : Pool σ α β) (r : Running α β) :
    ∃ agenda running, pool.await r = { pool with agenda, running } := by
  unfold await
  split
  · exact ⟨_, pool.running, rfl⟩
  · exact ⟨pool.agenda, _, rfl⟩

theorem exists_foldl_await (pool : Pool σ α β) (running : List (Running α β)) :
    ∃ agenda running', running.foldl await pool = { pool with agenda, running := running' } := by
  induction running generalizing pool with
  | nil => exact ⟨pool.agenda, pool.running, rfl⟩
  | cons r running ih =>
    obtain ⟨agenda, running', h⟩ := exists_await pool r
    rw [List.foldl_cons, h]
    exact ih _

theorem works_foldl_await (pool : Pool σ α β) (running : List (Running α β)) :
    Works pool (running.foldl await pool) := by
  induction running generalizing pool with
  | nil => exact .refl pool
  | cons r running ih => exact (works_await pool r).trans (ih _)

/-! ### What happens next -/

/-- The records of a pool grow at the present instant, which is now or later. -/
structure Grows (pool after : Pool σ α β) : Prop where
  now : pool.now ≤ after.now
  begun : GrowsAt Stamp.time after.now pool.begun after.begun
  released : GrowsAt Stamp.time after.now pool.released after.released
  ended : GrowsAt Ended.time after.now pool.ended after.ended
  trace : GrowsAt Event.time after.now pool.trace after.trace

/-- Nothing that waits for an instant has missed it. -/
structure Ahead (pool : Pool σ α β) : Prop where
  running : ∀ r ∈ pool.running, Process.isOver r.due pool.now = false
  cancelAt : Process.isOver pool.cancelAt pool.now = false

theorem Works.grows (h : Works pool after) : Grows pool after :=
  ⟨h.now.ge, h.now.symm ▸ h.begun, h.now.symm ▸ h.released, h.now.symm ▸ h.ended,
    h.now.symm ▸ h.trace⟩

theorem Works.ahead (h : Works pool after) (hpool : Ahead pool) : Ahead after := by
  refine ⟨fun r hr ↦ ?_, by rw [h.cancelAt, h.now]; exact hpool.cancelAt⟩
  rw [h.now]
  exact (h.running r hr).elim (hpool.running r) id

/-- What the call does leaves the records and the clock as they are, and all jobs stay in the pool.
No other job gets a slot for it. -/
structure Minds (pool after : Pool σ α β) : Prop where
  now : after.now = pool.now
  free : after.free = pool.free
  begun : after.begun = pool.begun
  released : after.released = pool.released
  ended : after.ended = pool.ended
  dropped : after.dropped = pool.dropped
  trace : after.trace = pool.trace
  queue : after.queue ⊆ pool.queue
  running : after.running ⊆ pool.running
  enters : ∀ next ∈ after.agenda, next ∈ pool.agenda ∨ next.isLive = false
  cancelAt : after.cancelAt = pool.cancelAt ∨ after.cancelAt = none
  unfinished : after.unfinished.Perm pool.unfinished
  waiting : after.waiting <+: pool.waiting

theorem Minds.refl (pool : Pool σ α β) : Minds pool pool where
  now := rfl
  free := rfl
  begun := rfl
  released := rfl
  ended := rfl
  dropped := rfl
  trace := rfl
  queue := List.Subset.refl _
  running := List.Subset.refl _
  enters := fun _ h ↦ .inl h
  cancelAt := .inl rfl
  unfinished := .refl _
  waiting := List.prefix_refl _

/-- What is put on the agenda for the call is no job. -/
theorem minds_schedule (pool : Pool σ α β) {handle : Handle α β} (hjob : handle.job? = none) :
    Minds pool (pool.schedule handle) :=
  { Minds.refl pool with
    enters := by
      intro next hnext
      rcases mem_schedule_iff.mp hnext with rfl | hnext
      · exact .inr (Handle.of_job?_eq_none hjob).1
      · exact .inl hnext
    unfinished := by
      have hperm := pool.schedule_unfinished handle
      rwa [hjob] at hperm
    waiting := by
      have hwaiting : (pool.schedule handle).waiting = pool.waiting :=
        congrArg (pool.queue.map Prod.fst ++ ·) (arrivals_schedule (Handle.of_job?_eq_none hjob).2)
      exact hwaiting ▸ List.prefix_rfl }

theorem minds_cancel (pool : Pool σ α β) (halt : Halt) : Minds pool (pool.cancel halt) := by
  have hdrops : ∀ next ∈ (pool.cancel halt).agenda,
      next.isLive = false ∧ next.arrival? = none := by
    intro next hnext
    rcases List.mem_append.mp hnext with hnext | hnext
    · obtain ⟨j, -, rfl⟩ := List.mem_map.mp hnext
      exact ⟨rfl, rfl⟩
    · rw [List.mem_singleton.mp hnext]
      exact ⟨rfl, rfl⟩
  have hwaiting : (pool.cancel halt).waiting = [] :=
    List.filterMap_eq_nil_iff.mpr fun next hnext ↦ (hdrops next hnext).2
  exact { Minds.refl pool with
    queue := List.nil_subset _
    running := List.nil_subset _
    enters := fun next hnext ↦ .inr (hdrops next hnext).1
    cancelAt := .inr rfl
    unfinished := .of_eq (cancel_unfinished ..)
    waiting := hwaiting ▸ List.nil_prefix }

theorem minds_leave (pool : Pool σ α β) (halt : Halt) : Minds pool (pool.leave halt) :=
  { Minds.refl pool with cancelAt := .inr rfl }

theorem minds_report (pool : Pool σ α β) (number : Nat) : Minds pool (pool.report number) := by
  unfold report
  split
  · split
    · exact { minds_schedule { pool with call := .called } rfl with }
    · exact .refl pool
  · exact .refl pool

theorem minds_collect (rules : Rules σ β) (pool : Pool σ α β) :
    Minds pool (pool.collect rules) := by
  unfold collect
  split
  · split
    · exact minds_cancel ..
    · split
      · exact minds_leave ..
      · exact { Minds.refl pool with }
  · exact .refl pool

theorem minds_giveUp (pool : Pool σ α β) : Minds pool pool.giveUp := by
  unfold giveUp
  split
  · exact minds_cancel ..
  · exact minds_cancel ..
  · exact .refl pool

theorem minds_gather (pool : Pool σ α β) : Minds pool pool.gather := by
  unfold gather
  split
  · split
    · exact minds_leave ..
    · exact .refl pool
  · exact .refl pool

theorem minds_callOff (pool : Pool σ α β) : Minds pool pool.callOff := by
  unfold callOff
  split
  · exact { minds_schedule { pool with cancelAt := none } rfl with cancelAt := .inr rfl }
  · exact .refl pool

/-- What is no job on an agenda is about the call. -/
theorem minds_perform (rules : Rules σ β) (pool : Pool σ α β) {handle : Handle α β}
    (h : handle.job? = none) : Minds pool (pool.perform rules handle) := by
  cases handle with
  | arrives => cases h
  | resumes => cases h
  | drops => cases h
  | reports number => exact minds_report ..
  | collects => exact minds_collect ..
  | cancels => exact minds_giveUp ..
  | gathers => exact minds_gather ..

theorem Minds.trans_grows (h : Minds pool middle) (h' : Grows middle after) : Grows pool after where
  now := h.now.ge.trans h'.now
  begun := h.begun ▸ h'.begun
  released := h.released ▸ h'.released
  ended := h.ended ▸ h'.ended
  trace := h.trace ▸ h'.trace

theorem Minds.grows (h : Minds pool after) : Grows pool after :=
  h.trans_grows (Works.refl after).grows

theorem Minds.ahead (h : Minds pool after) (hpool : Ahead pool) : Ahead after := by
  refine ⟨fun r hr ↦ h.now ▸ hpool.running r (h.running hr), ?_⟩
  rcases h.cancelAt with hcancel | hcancel
  · rw [hcancel, h.now]
    exact hpool.cancelAt
  · rw [hcancel]
    rfl

/-- All that can happen next: something about a job, which is taken off the agenda for that,
something about the call, or the clock goes on. -/
inductive Happens (rules : Rules σ β) (pool after : Pool σ α β) : Prop
  | arrives {position : Nat} {job : Job α β} {agenda : Agenda α β}
    (hagenda : pool.agenda = .arrives position job :: agenda)
    (hafter : after = arrive rules { pool with agenda } position job)
  | resumes {r : Running α β} {inTime : Bool} {agenda : Agenda α β}
    (hagenda : pool.agenda = .resumes r inTime :: agenda)
    (hafter : after = resume rules { pool with agenda } r inTime)
  | drops {position : Nat} {holds : Bool} {agenda : Agenda α β}
    (hagenda : pool.agenda = .drops position holds :: agenda)
    (hafter : after = drop { pool with agenda } position holds)
  | minds {handle : Handle α β} {agenda : Agenda α β}
    (hagenda : pool.agenda = handle :: agenda) (hjob : handle.job? = none)
    (hminds : Minds { pool with agenda } after)
  | advances {time : Rat} (hagenda : pool.agenda = []) (htime : pool.wakeTime? = some time)
    (hafter : after = pool.advance time)

theorem happens_of_next? (h : pool.next? rules = some after) : Happens rules pool after := by
  rcases next?_cases h with ⟨handle, agenda, hagenda, rfl⟩ | ⟨hagenda, time, htime, rfl⟩
  · cases handle with
    | arrives position job => exact .arrives hagenda rfl
    | resumes r inTime => exact .resumes hagenda rfl
    | drops position holds => exact .drops hagenda rfl
    | reports number => exact .minds hagenda rfl (minds_perform rules _ rfl)
    | collects => exact .minds hagenda rfl (minds_perform rules _ rfl)
    | cancels => exact .minds hagenda rfl (minds_perform rules _ rfl)
    | gathers => exact .minds hagenda rfl (minds_perform rules _ rfl)
  · exact .advances hagenda htime rfl

/-- A job that comes to its end because it was cancelled does it now. -/
theorem grows_drop (pool : Pool σ α β) (position : Nat) (holds : Bool) :
    Grows pool (pool.drop position holds) := by
  unfold drop
  dsimp only
  split
  · exact { (works_release { pool with dropped := pool.dropped ++ [⟨position, pool.now⟩] }
      position).grows with }
  · exact { (Minds.refl pool).grows with }

theorem ahead_drop (h : Ahead pool) (position : Nat) (holds : Bool) :
    Ahead (pool.drop position holds) := by
  have hdropped : Ahead { pool with dropped := pool.dropped ++ [⟨position, pool.now⟩] } :=
    ⟨h.running, h.cancelAt⟩
  unfold drop
  dsimp only
  split
  · exact (works_release ..).ahead hdropped
  · exact hdropped

/-- What is on the agenda is done at the present instant. -/
theorem perform_now (rules : Rules σ β) (pool : Pool σ α β) (handle : Handle α β) :
    (pool.perform rules handle).now = pool.now := by
  cases handle with
  | arrives position job => exact (works_arrive ..).now
  | resumes r inTime => exact (works_resume ..).now
  | drops position holds =>
    unfold perform drop
    dsimp only
    split
    · exact (works_release ..).now
    · rfl
  | reports number => exact (minds_report ..).now
  | collects => exact (minds_collect ..).now
  | cancels => exact (minds_giveUp ..).now
  | gathers => exact (minds_gather ..).now

/-- When the clock goes on, the agenda changes and what is waited for, and nothing else. -/
theorem exists_advance (pool : Pool σ α β) (time : Rat) :
    ∃ agenda running cancelAt,
      pool.advance time = { pool with now := time, agenda, running, cancelAt } := by
  obtain ⟨agenda, running, h⟩ :=
    exists_foldl_await (callOff { pool with now := time, running := [] }) pool.running
  unfold advance
  rw [h]
  unfold callOff
  split
  · exact ⟨agenda, running, none, rfl⟩
  · exact ⟨agenda, running, pool.cancelAt, rfl⟩

theorem advance_now (pool : Pool σ α β) (time : Rat) : (pool.advance time).now = time :=
  (works_foldl_await _ pool.running).now.trans (callOff_now _)

theorem Ahead.advance {time : Rat} (h : Ahead pool) (htime : pool.wakeTime? = some time) :
    Grows pool (pool.advance time) ∧ Ahead (pool.advance time) := by
  have hlater : pool.now ≤ time := by
    have hover : Process.isOver (some time) pool.now = false := by
      rcases exists_of_wakeTime? htime with hcancel | ⟨r, hr, hdue⟩
      · exact hcancel ▸ h.cancelAt
      · exact hdue ▸ h.running r hr
    exact (not_le.mp (of_decide_eq_false hover)).le
  let waiting : Pool σ α β := { pool with now := time, running := [] }
  have hminds : Minds waiting waiting.callOff := minds_callOff _
  have hworks : Works waiting.callOff (pool.advance time) := works_foldl_await ..
  have hnow : (pool.advance time).now = time := advance_now pool time
  have hcancelAt : Process.isOver waiting.callOff.cancelAt time = false := by
    unfold callOff
    split
    · rfl
    · exact Bool.eq_false_iff.mpr ‹_›
  have hahead : Ahead waiting.callOff :=
    ⟨fun r hr ↦ absurd (hminds.running hr) List.not_mem_nil, (callOff_now waiting).symm ▸ hcancelAt⟩
  have hgrows : Grows waiting (pool.advance time) := hminds.trans_grows hworks.grows
  exact ⟨{ hgrows with now := hlater.trans hnow.ge }, hworks.ahead hahead⟩

/-- Whatever happens next, the records grow at its instant, and nothing is missed. -/
theorem Ahead.next (h : Ahead pool) (hnext : pool.next? rules = some after) :
    Grows pool after ∧ Ahead after := by
  have hpool (agenda : Agenda α β) : Ahead { pool with agenda } :=
    ⟨h.running, h.cancelAt⟩
  cases happens_of_next? hnext with
  | @arrives position job agenda hagenda hafter =>
    have hworks := works_arrive rules { pool with agenda } position job
    exact hafter ▸ ⟨{ hworks.grows with }, hworks.ahead (hpool agenda)⟩
  | @resumes r inTime agenda hagenda hafter =>
    have hworks := works_resume rules { pool with agenda } r inTime
    exact hafter ▸ ⟨{ hworks.grows with }, hworks.ahead (hpool agenda)⟩
  | @drops position holds agenda hagenda hafter =>
    have hgrows := grows_drop { pool with agenda } position holds
    exact hafter ▸ ⟨{ hgrows with }, ahead_drop (hpool agenda) position holds⟩
  | @minds handle agenda hagenda hjob hminds =>
    exact ⟨{ hminds.grows with }, hminds.ahead (hpool agenda)⟩
  | advances hagenda htime hafter => exact hafter ▸ h.advance htime

/-- Opening a pool is about the call. -/
theorem minds_opened (rules : Rules σ β) (last : Option Rat) (now : Rat) (state : σ)
    (jobs : List (Job α β)) :
    Minds (filled rules last now state jobs) (opened rules last now state jobs) := by
  unfold opened
  dsimp only
  split
  · exact minds_leave ..
  · exact minds_callOff _

theorem ahead_opened (rules : Rules σ β) (last : Option Rat) (now : Rat) (state : σ)
    (jobs : List (Job α β)) : Ahead (opened rules last now state jobs) := by
  unfold opened
  dsimp only
  split
  · exact ⟨nofun, rfl⟩
  · unfold callOff
    split
    · exact ⟨nofun, rfl⟩
    · exact ⟨nofun, Bool.eq_false_iff.mpr ‹_›⟩

/-- On its way a pool misses nothing, and keeps its ends and enters others behind them, none of them
in the past. -/
theorem Leads.ended_append {later : Pool σ α β} (h : Leads rules pool later) (hpool : Ahead pool) :
    Ahead later ∧ pool.now ≤ later.now ∧
      ∃ more, later.ended = pool.ended ++ more ∧ ∀ e ∈ more, pool.now ≤ e.time := by
  induction h with
  | refl => exact ⟨hpool, le_refl _, [], (List.append_nil _).symm, nofun⟩
  | tail _ hnext ih =>
    obtain ⟨hahead, hnow, more, hended, htimes⟩ := ih
    obtain ⟨hgrows, hahead'⟩ := hahead.next hnext
    obtain ⟨last, hlast, hall⟩ := hgrows.ended
    have hlater := hnow.trans hgrows.now
    refine ⟨hahead', hlater, more ++ last, by rw [hlast, hended, List.append_assoc], ?_⟩
    exact List.forall_mem_append.mpr ⟨htimes, fun e he ↦ hlater.trans (hall e he).ge⟩

/-- On the whole way of a run, nothing is missed. -/
theorem Leads.ahead {last : Option Rat} {now : Rat} {state : σ} {jobs : List (Job α β)}
    (h : Leads rules (opened rules last now state jobs) pool) : Ahead pool :=
  (h.ended_append (ahead_opened rules last now state jobs)).1

/-- A run leads to a pool in which nothing happens any more. -/
theorem leads_run (rules : Rules σ β) (last : Option Rat) (now : Rat) (state : σ)
    (jobs : List (Job α β)) :
    Leads rules (opened rules last now state jobs) (run rules last now state jobs).1 ∧
      (run rules last now state jobs).1.next? rules = none :=
  leads_play rules _

/-- Nothing in the records of a pool is later than its clock. -/
structure Past (pool : Pool σ α β) : Prop where
  begun : ∀ b ∈ pool.begun, b.time ≤ pool.now
  released : ∀ r ∈ pool.released, r.time ≤ pool.now
  ended : ∀ e ∈ pool.ended, e.time ≤ pool.now
  trace : ∀ x ∈ pool.trace, x.time ≤ pool.now

theorem Grows.past (h : Grows pool after) (hpool : Past pool) : Past after where
  begun := h.begun.forall_le fun b hb ↦ (hpool.begun b hb).trans h.now
  released := h.released.forall_le fun r hr ↦ (hpool.released r hr).trans h.now
  ended := h.ended.forall_le fun e he ↦ (hpool.ended e he).trans h.now
  trace := h.trace.forall_le fun x hx ↦ (hpool.trace x hx).trans h.now

/-- On the whole way of a run, nothing is entered in advance. -/
theorem Leads.past {last : Option Rat} {now : Rat} {state : σ} {jobs : List (Job α β)}
    (h : Leads rules (opened rules last now state jobs) pool) : Past pool := by
  have hboth : Ahead pool ∧ Past pool := by
    refine h.keeps (P := fun pool ↦ Ahead pool ∧ Past pool) (fun pool after hnext hpool ↦ ?_)
      ⟨ahead_opened .., ?_⟩
    · obtain ⟨hgrows, hahead⟩ := hpool.1.next hnext
      exact ⟨hahead, hgrows.past hpool.2⟩
    · have hfilled : Past (filled rules last now state jobs) := ⟨nofun, nofun, nofun, nofun⟩
      exact (minds_opened ..).grows.past hfilled
  exact hboth.2

end Pool

end Admission
