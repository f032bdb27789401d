import Admission.Proofs.Exchange.Replay
import Admission.Proofs.Pool.Places

/-!
# The jobs of a pool on their own

What a job does in a pool depends on the others only through the instant at which it gets its slot
and the answers of the provider that they share. `Follows` says how far a job has come: run alone
from that instant, with its budget counted from then and the answers that it got played back to it,
it does what it did in the pool, and goes on in a way that is told. `Solo` is the invariant that the
jobs of a pool wait and go on as they do alone, and that the others ended as they do alone. So
neither the time that a job spends in the queue counts, nor the turns of others (`Leads.solo`).
-/

set_option autoImplicit false
set_option relaxedAutoImplicit false

namespace Admission

namespace Pool

variable {σ α β : Type} {rules : Rules σ β} {pool after : Pool σ α β} {jobs : List (Job α β)}

/-! ### When a job is due -/

/-- A job that wakes before its deadline is due then. -/
theorem wake_of_due {r : Running α β} {time : Rat} (hdue : r.due = some time)
    (h : r.wakesInTime = true) :
    r.wake = some time ∧ Process.isOver r.deadline time = false := by
  unfold Running.due at hdue
  unfold Running.wakesInTime at h
  rcases hwake : r.wake with _ | wake
  · rw [hwake] at h
    cases h
  · rw [hwake] at h hdue
    rw [Bool.not_eq_true'] at h
    rcases hdeadline : r.deadline with _ | d
    · rw [hdeadline] at hdue
      cases hdue
      exact ⟨rfl, rfl⟩
    · rw [hdeadline] at h hdue
      have hlt : wake < d := by simpa [Process.isOver] using h
      simp only [earlier, not_lt.mpr hlt.le, if_false, Option.some.injEq] at hdue
      subst hdue
      exact ⟨rfl, h⟩

/-- A job that does not wake before its deadline is due at the deadline, and has waited up to
then. -/
theorem deadline_of_due {r : Running α β} {time : Rat} (hdue : r.due = some time)
    (h : r.wakesInTime = false) :
    r.deadline = some time ∧ ∀ wake, r.wake = some wake → time ≤ wake := by
  unfold Running.due at hdue
  unfold Running.wakesInTime at h
  rcases hwake : r.wake with _ | wake
  · rw [hwake] at hdue
    exact ⟨hdue, nofun⟩
  · rw [hwake] at h hdue
    rw [Bool.not_eq_false'] at h
    rcases hdeadline : r.deadline with _ | d
    · rw [hdeadline] at h
      cases h
    · rw [hdeadline] at h hdue
      have hle : d ≤ wake := by simpa [Process.isOver] using h
      have htime : d = time := by
        simp only [earlier, Option.some.injEq] at hdue
        split at hdue
        · exact hdue
        · rename_i hge
          exact (le_antisymm hle (not_lt.mp hge)).trans hdue
      subst htime
      refine ⟨rfl, ?_⟩
      rintro _ ⟨⟩
      exact hle

theorem le_earlier {a b : Option Rat} {now t : Rat} (ha : ∀ u, a = some u → now ≤ u)
    (hb : ∀ u, b = some u → now ≤ u) (h : earlier a b = some t) : now ≤ t := by
  rcases earlier_eq_or a b with heq | heq
  · exact ha t (heq ▸ h)
  · exact hb t (heq ▸ h)

/-- A job is due at its deadline or before it. -/
theorem le_deadline_of_due {r : Running α β} {time d : Rat} (hdue : r.due = some time)
    (hd : r.deadline = some d) : time ≤ d := by
  unfold Running.due at hdue
  rw [hd] at hdue
  rcases hwake : r.wake with _ | wake
  · rw [hwake] at hdue
    exact (Option.some.inj hdue).ge
  · rw [hwake] at hdue
    have htime : (if d < wake then d else wake) = time := Option.some.inj hdue
    rw [← htime]
    split
    · exact le_refl _
    · exact not_lt.mp ‹_›

/-! ### How far a job has come -/

/-- A job that began at some instant did some part of a trace and got some answers. Alone, with
these answers and others behind them, it does the same and goes on as told. -/
structure Follows (responder : Responder σ) (begun : List Stamp) (trace : Trace) (position : Nat)
    (job : Job α β) (since : Rat) (own : Trace) (answers : List Delivery)
    (rest : List Delivery → Process.Run α (List Delivery)) : Prop where
  begins : ⟨position, since⟩ ∈ begun
  does : own.Sublist trace
  gives : List.Forall₂ responder.Gives own.requests answers
  alone : ∀ more, job.process.run replay (job.budget.map (since + ·)) since (answers ++ more) =
    (rest more).behind own

section Follows

variable {responder : Responder σ} {begun begun' : List Stamp} {trace trace' : Trace}
  {position : Nat} {job : Job α β} {since now : Rat} {own : Trace} {answers : List Delivery}
  {rest : List Delivery → Process.Run α (List Delivery)}

/-- What a job has done stays done. -/
theorem Follows.mono (h : Follows responder begun trace position job since own answers rest)
    (hbegun : begun ⊆ begun') (htrace : trace.Sublist trace') :
    Follows responder begun' trace' position job since own answers rest :=
  ⟨hbegun h.begins, h.does.trans htrace, h.gives, h.alone⟩

/-- A job that begins has done nothing yet. -/
theorem follows_start (responder : Responder σ) (begun : List Stamp) (trace : Trace)
    (position : Nat) (job : Job α β) (now : Rat) :
    Follows responder (begun ++ [⟨position, now⟩]) trace position job now [] [] fun more ↦
      job.process.run replay (job.budget.map (now + ·)) now more :=
  ⟨List.mem_append_right _ List.mem_cons_self, List.nil_sublist _, .nil, fun _ ↦ rfl⟩

/-- A job that goes on does what its process does up to the next wait. -/
theorem Follows.settle {process : Process α} {deadline : Option Rat}
    (h : Follows responder begun trace position job since own answers fun more ↦
      process.run replay deadline now more) (state : σ) :
    ∃ own answers, Follows responder begun (trace ++ (process.settle responder now state).trace)
      position job since own answers fun more ↦
        (process.settle responder now state).left.run replay deadline now more := by
  obtain ⟨next, hgives, hsettle⟩ := Process.settle_replay responder now state process
  refine ⟨own ++ (process.settle responder now state).trace, answers ++ next, h.begins,
    h.does.append (List.Sublist.refl _), ?_, ?_⟩
  · rw [Trace.requests_append]
    exact List.rel_append h.gives hgives
  · intro more
    rw [List.append_assoc, h.alone, Process.run_eq_settle, hsettle, Process.Run.behind_behind]

end Follows

/-! ### The jobs in their places -/

section Places

variable {r : Running α β} {e : Ended β} {handle : Handle α β}

/-- A job waits as it does alone. -/
def Waits (rules : Rules σ β) (jobs : List (Job α β)) (pool : Pool σ α β) (r : Running α β) :
    Prop :=
  ∃ job since own answers asked, jobs[r.position]? = some job ∧ r.conclude = job.conclude ∧
    r.deadline = job.budget.map (since + ·) ∧
    Follows rules.responder pool.begun pool.trace r.position job since own answers fun more ↦
      r.rest.wait replay r.deadline asked more r.wake

/-- How a job goes on at some instant: with what is left of it, or not at all if it is too late. -/
def goesOn (now : Rat) (r : Running α β) (inTime : Bool) (more : List Delivery) :
    Process.Run α (List Delivery) :=
  match inTime with
  | true => r.rest.run replay r.deadline now more
  | false => ⟨[], more, .stopped now⟩

/-- A job is about to go on as it does alone. -/
def Resumes (rules : Rules σ β) (jobs : List (Job α β)) (pool : Pool σ α β) (r : Running α β)
    (inTime : Bool) : Prop :=
  ∃ job since own answers, jobs[r.position]? = some job ∧ r.conclude = job.conclude ∧
    r.deadline = job.budget.map (since + ·) ∧ (∀ d, r.deadline = some d → pool.now ≤ d) ∧
    Follows rules.responder pool.begun pool.trace r.position job since own answers
      (goesOn pool.now r inTime)

/-- A job on the agenda is the one of its position, or goes on as it does alone. -/
def Ready (rules : Rules σ β) (jobs : List (Job α β)) (pool : Pool σ α β) : Handle α β → Prop
  | .arrives position job => jobs[position]? = some job
  | .resumes r inTime => Resumes rules jobs pool r inTime
  | _ => True

/-- A job ended as it does alone. -/
def EndsAlone (rules : Rules σ β) (jobs : List (Job α β)) (pool : Pool σ α β) (e : Ended β) :
    Prop :=
  ∃ job since own answers ending, jobs[e.position]? = some job ∧
    (Follows rules.responder pool.begun pool.trace e.position job since own answers fun more ↦
      ⟨[], more, ending⟩) ∧
    ((∃ result, ending = .finished e.time result ∧ e.result = (job.conclude (some result)).2) ∨
      (ending = .stopped e.time ∧ e.result = (job.conclude none).2))

/-- The jobs of a pool wait and go on as they do alone, and those that ended did so as they do
alone. -/
structure Solo (rules : Rules σ β) (jobs : List (Job α β)) (pool : Pool σ α β) : Prop where
  queue : ∀ q ∈ pool.queue, jobs[q.1]? = some q.2
  running : ∀ r ∈ pool.running, Waits rules jobs pool r
  agenda : ∀ next ∈ pool.agenda, Ready rules jobs pool next
  ended : ∀ e ∈ pool.ended, EndsAlone rules jobs pool e

theorem ready_of_not_isLive (h : handle.isLive = false) : Ready rules jobs pool handle := by
  cases handle with
  | arrives => cases h
  | resumes => cases h
  | _ => trivial

theorem Waits.mono (h : Waits rules jobs pool r) (hbegun : pool.begun ⊆ after.begun)
    (htrace : pool.trace.Sublist after.trace) : Waits rules jobs after r := by
  obtain ⟨job, since, own, answers, asked, hjob, hconclude, hdeadline, hfollows⟩ := h
  exact ⟨job, since, own, answers, asked, hjob, hconclude, hdeadline, hfollows.mono hbegun htrace⟩

theorem Waits.minds (h : Waits rules jobs pool r) (hminds : Minds pool after) :
    Waits rules jobs after r :=
  h.mono (hminds.begun ▸ List.Subset.refl _) (hminds.trace ▸ List.Sublist.refl _)

theorem EndsAlone.mono (h : EndsAlone rules jobs pool e) (hbegun : pool.begun ⊆ after.begun)
    (htrace : pool.trace.Sublist after.trace) : EndsAlone rules jobs after e := by
  obtain ⟨job, since, own, answers, ending, hjob, hfollows, hends⟩ := h
  exact ⟨job, since, own, answers, ending, hjob, hfollows.mono hbegun htrace, hends⟩

theorem Resumes.mono {inTime : Bool} (h : Resumes rules jobs pool r inTime)
    (hbegun : pool.begun ⊆ after.begun) (htrace : pool.trace.Sublist after.trace)
    (hnow : after.now = pool.now) : Resumes rules jobs after r inTime := by
  obtain ⟨job, since, own, answers, hjob, hconclude, hdeadline, hlater, hfollows⟩ := h
  refine ⟨job, since, own, answers, hjob, hconclude, hdeadline, hnow ▸ hlater, ?_⟩
  rw [hnow]
  exact hfollows.mono hbegun htrace

/-- More that begins and happens now does not matter to the jobs that there were. -/
theorem Solo.mono (h : Solo rules jobs pool) (hbegun : pool.begun ⊆ after.begun)
    (htrace : pool.trace.Sublist after.trace) (hnow : after.now = pool.now)
    (hqueue : after.queue ⊆ pool.queue) (hrunning : after.running ⊆ pool.running)
    (hagenda : ∀ next ∈ after.agenda, next ∈ pool.agenda ∨ next.isLive = false)
    (hended : after.ended = pool.ended) : Solo rules jobs after where
  queue := fun q hq ↦ h.queue q (hqueue hq)
  running := fun r hr ↦ (h.running r (hrunning hr)).mono hbegun htrace
  agenda := by
    intro next hnext
    rcases hagenda next hnext with hold | hlive
    · have hready := h.agenda next hold
      cases next with
      | arrives position job => exact hready
      | resumes r inTime => exact Resumes.mono hready hbegun htrace hnow
      | _ => trivial
    · exact ready_of_not_isLive hlive
  ended := by
    rw [hended]
    exact fun e he ↦ (h.ended e he).mono hbegun htrace

namespace Solo

theorem minds (h : Solo rules jobs pool) (hminds : Minds pool after) : Solo rules jobs after :=
  h.mono (hminds.begun ▸ List.Subset.refl _) (hminds.trace ▸ List.Sublist.refl _) hminds.now
    hminds.queue hminds.running hminds.enters hminds.ended

theorem head (h : Solo rules jobs pool) {agenda : Agenda α β}
    (hagenda : pool.agenda = handle :: agenda) : Ready rules jobs pool handle :=
  h.agenda handle (hagenda ▸ List.mem_cons_self)

/-- The first entry is taken off the agenda. -/
theorem tail (h : Solo rules jobs pool) {agenda : Agenda α β}
    (hagenda : pool.agenda = handle :: agenda) :
    Solo rules jobs { pool with agenda } := by
  refine h.mono (List.Subset.refl _) (List.Sublist.refl _) rfl (List.Subset.refl _)
    (List.Subset.refl _) (fun next hnext ↦ .inl ?_) rfl
  rw [hagenda]
  exact List.mem_cons_of_mem _ hnext

theorem schedule (h : Solo rules jobs pool) (hready : Ready rules jobs pool handle) :
    Solo rules jobs (pool.schedule handle) := by
  refine ⟨h.queue, h.running, fun next hnext ↦ ?_, h.ended⟩
  rcases mem_schedule_iff.mp hnext with rfl | hnext
  · exact hready
  · exact h.agenda next hnext

/-- The turns that a job lets pass do not matter to it. -/
theorem pass {inTime : Bool} (h : Solo rules jobs pool) (hr : Resumes rules jobs pool r inTime) :
    Solo rules jobs (pool.pass r inTime) :=
  h.schedule hr

/-- A job that waits, and not for the past, goes on as it does alone when it is due. -/
theorem await (h : Solo rules jobs pool) (hr : Waits rules jobs pool r)
    (hdue : ∀ t, r.due = some t → pool.now ≤ t) : Solo rules jobs (pool.await r) := by
  unfold Pool.await
  split
  · rename_i hover
    have hnow : r.due = some pool.now := by
      rcases ht : r.due with _ | t
      · rw [ht] at hover
        cases hover
      · rw [ht] at hover
        rw [le_antisymm (of_decide_eq_true hover) (hdue t ht)]
    obtain ⟨job, since, own, answers, asked, hjob, hconclude, hdeadline, hfollows⟩ := hr
    refine h.pass ⟨job, since, own, answers, hjob, hconclude, hdeadline, ?_, ?_⟩
    · exact fun d hd ↦ le_deadline_of_due hnow hd
    · rcases hwakes : r.wakesInTime with _ | _
      · obtain ⟨hlast, hwake⟩ := deadline_of_due hnow hwakes
        have hstopped : goesOn pool.now r false = fun more ↦
            r.rest.wait replay r.deadline asked more r.wake := by
          funext more
          rw [hlast]
          rcases hnever : r.wake with _ | wake
          · rfl
          · have hover : Process.isOver (some pool.now) wake = true := by
              simpa [Process.isOver] using hwake wake hnever
            simp only [goesOn, Process.wait, hover, if_true, Option.getD_some]
        rw [hstopped]
        exact hfollows
      · obtain ⟨hwake, hinTime⟩ := wake_of_due hnow hwakes
        have hgoes : goesOn pool.now r true = fun more ↦
            r.rest.wait replay r.deadline asked more r.wake := by
          funext more
          simp only [goesOn, hwake, Process.wait, hinTime, Bool.false_eq_true, if_false]
        rw [hgoes]
        exact hfollows
  · refine ⟨h.queue, fun s hs ↦ ?_, h.agenda, h.ended⟩
    rcases List.mem_append.mp hs with hs | hs
    · exact h.running s hs
    · rwa [List.mem_singleton.mp hs]

/-- Jobs wait on when the clock goes on to the next instant for which one of them waits. -/
theorem advance (h : Solo rules jobs pool) {time : Rat} (hagenda : pool.agenda = [])
    (htime : pool.wakeTime? = some time) : Solo rules jobs (pool.advance time) := by
  have hall (pool' : Pool σ α β) (running : List (Running α β)) (h' : Solo rules jobs pool')
      (hnow : pool'.now = time)
      (hrunning : ∀ r ∈ running, Waits rules jobs pool' r ∧ ∀ t, r.due = some t → time ≤ t) :
      Solo rules jobs (running.foldl Pool.await pool') := by
    induction running generalizing pool' with
    | nil => exact h'
    | cons r running ih =>
      obtain ⟨hr, hdue⟩ := hrunning r List.mem_cons_self
      refine ih _ (h'.await hr (hnow ▸ hdue)) ((await_now ..).trans hnow) fun s hs ↦ ?_
      obtain ⟨hs', hdue'⟩ := hrunning s (List.mem_cons_of_mem _ hs)
      obtain ⟨agenda, running', hawait⟩ := exists_await pool' r
      exact ⟨hs'.mono (hawait ▸ List.Subset.refl _) (hawait ▸ List.Sublist.refl _), hdue'⟩
  have hwaiting : Solo rules jobs { pool with now := time, running := [] } := by
    refine ⟨h.queue, fun r hr ↦ absurd hr List.not_mem_nil, fun next hnext ↦ ?_, h.ended⟩
    have hnext : next ∈ pool.agenda := hnext
    rw [hagenda] at hnext
    cases hnext
  let waiting : Pool σ α β := { pool with now := time, running := [] }
  have hminds : Minds waiting waiting.callOff := minds_callOff _
  refine hall _ pool.running (hwaiting.minds hminds) hminds.now fun r hr ↦ ⟨?_, ?_⟩
  · have hr : Waits rules jobs waiting r := h.running r hr
    exact hr.minds hminds
  · exact (wakeTime?_le htime).2 r hr

section Budget

variable (hbudget : ∀ job ∈ jobs, ∀ b, job.budget = some b → 0 ≤ b)

include hbudget

/-- The budget of a job that begins is not used up yet. -/
theorem le_deadline_ofJob {position : Nat} {job : Job α β} (hjob : jobs[position]? = some job)
    (now : Rat) : ∀ d, (Running.ofJob position job now).deadline = some d → now ≤ d := by
  intro d hd
  obtain ⟨b, hb, rfl⟩ := Option.map_eq_some_iff.mp hd
  exact le_add_of_nonneg_right (hbudget job (List.mem_of_getElem? hjob) b hb)

/-- A job that gives its slot back hands it on to the one that has waited longest, whose budget
begins then. -/
theorem release (h : Solo rules jobs pool) (position : Nat) :
    Solo rules jobs (pool.release position) := by
  rcases hqueue : pool.queue with _ | ⟨⟨next, job⟩, queue⟩
  · rw [release_of_nil hqueue]
    exact ⟨h.queue, h.running, h.agenda, h.ended⟩
  · rw [release_of_cons hqueue]
    have hjob : jobs[next]? = some job := h.queue (next, job) (hqueue ▸ List.mem_cons_self)
    let begun : Pool σ α β := { pool with
      released := pool.released ++ [⟨position, pool.now⟩], queue
      begun := pool.begun ++ [⟨next, pool.now⟩] }
    have hbegun : Solo rules jobs begun := by
      refine h.mono (List.subset_append_left _ _) (List.Sublist.refl _) rfl ?_
        (List.Subset.refl _) (fun _ ↦ .inl) rfl
      rw [hqueue]
      exact List.subset_cons_self _ _
    exact hbegun.schedule ⟨job, pool.now, [], [], hjob, rfl, rfl,
      le_deadline_ofJob hbudget hjob pool.now, follows_start ..⟩

/-- A job that ends as it does alone. -/
theorem finish {position : Nat} {conclusion : List Occurrence × β} (h : Solo rules jobs pool)
    (he : EndsAlone rules jobs pool ⟨position, pool.now, conclusion.2⟩) :
    Solo rules jobs (pool.finish position conclusion) := by
  let noted : Pool σ α β :=
    { pool with trace := pool.trace ++ conclusion.1.map fun what ↦ ⟨pool.now, what⟩ }
  have hnoted : Solo rules jobs noted :=
    h.mono (List.Subset.refl _) (List.sublist_append_left _ _) rfl (List.Subset.refl _)
      (List.Subset.refl _) (fun _ ↦ .inl) rfl
  have hends : EndsAlone rules jobs noted ⟨position, pool.now, conclusion.2⟩ :=
    he.mono (List.Subset.refl _) (List.sublist_append_left _ _)
  have hentered : Solo rules jobs
      { noted with ended := pool.ended ++ [⟨position, pool.now, conclusion.2⟩] } := by
    refine ⟨hnoted.queue, hnoted.running, hnoted.agenda, fun e he' ↦ ?_⟩
    rcases List.mem_append.mp he' with he' | he'
    · exact hnoted.ended e he'
    · rw [List.mem_singleton.mp he']
      exact hends
  exact (hentered.release hbudget position).schedule trivial

/-- A job that goes on ends or waits as it does alone. -/
theorem carryOn (h : Solo rules jobs pool)
    (hr : Resumes rules jobs pool r true) : Solo rules jobs (pool.carryOn rules r) := by
  obtain ⟨job, since, own, answers, hjob, hconclude, hdeadline, hlater, hfollows⟩ := hr
  have hgoes : Follows rules.responder pool.begun pool.trace r.position job since own answers
      fun more ↦ r.rest.run replay r.deadline pool.now more := hfollows
  have hsettled := hgoes.settle pool.state
  rcases hsettle : r.rest.settle rules.responder pool.now pool.state with
    ⟨trace, state, result | ⟨wake, turns, rest⟩⟩
  · rw [carryOn_done hsettle]
    rw [hsettle] at hsettled
    obtain ⟨own, answers, hdone⟩ := hsettled
    have hpool : Solo rules jobs { pool with trace := pool.trace ++ trace, state } :=
      h.mono (List.Subset.refl _) (List.sublist_append_left _ _) rfl (List.Subset.refl _)
        (List.Subset.refl _) (fun _ ↦ .inl) rfl
    exact hpool.finish hbudget
      ⟨job, since, own, answers, _, hjob, hdone, .inl ⟨result, rfl, by rw [hconclude]⟩⟩
  · have hwake : ∀ t, wake = some t → pool.now ≤ t := by
      rintro t rfl
      exact Process.le_wake (by rw [hsettle])
    obtain ⟨bounded, hcarry⟩ := carryOn_waiting hsettle
    rw [hcarry]
    rw [hsettle] at hsettled
    obtain ⟨own, answers, hwaits⟩ := hsettled
    have hpool : Solo rules jobs { pool with trace := pool.trace ++ trace, state } :=
      h.mono (List.Subset.refl _) (List.sublist_append_left _ _) rfl (List.Subset.refl _)
        (List.Subset.refl _) (fun _ ↦ .inl) rfl
    exact hpool.await ⟨job, since, own, answers, pool.now, hjob, hconclude, hdeadline, hwaits⟩
      fun t ht ↦ le_earlier hwake hlater ht

theorem resume {inTime : Bool} (h : Solo rules jobs pool)
    (hr : Resumes rules jobs pool r inTime) : Solo rules jobs (pool.resume rules r inTime) := by
  cases inTime with
  | true =>
    unfold Pool.resume
    rw [if_pos rfl]
    split
    · exact h.pass hr
    · exact h.carryOn hbudget hr
  | false =>
    obtain ⟨job, since, own, answers, hjob, hconclude, hdeadline, hlater, hfollows⟩ := hr
    exact h.finish hbudget
      ⟨job, since, own, answers, _, hjob, hfollows, .inr ⟨rfl, by rw [hconclude]⟩⟩

theorem arrive {position : Nat} {job : Job α β} (h : Solo rules jobs pool)
    (hjob : jobs[position]? = some job) :
    Solo rules jobs (pool.arrive rules position job) := by
  unfold Pool.arrive
  split
  · let begun : Pool σ α β :=
      { pool with free := pool.free - 1, begun := pool.begun ++ [⟨position, pool.now⟩] }
    have hbegun : Solo rules jobs begun :=
      h.mono (List.subset_append_left _ _) (List.Sublist.refl _) rfl (List.Subset.refl _)
        (List.Subset.refl _) (fun _ ↦ .inl) rfl
    exact hbegun.carryOn hbudget ⟨job, pool.now, [], [], hjob, rfl, rfl,
      le_deadline_ofJob hbudget hjob pool.now, follows_start ..⟩
  · refine ⟨fun q hq ↦ ?_, h.running, h.agenda, h.ended⟩
    rcases List.mem_append.mp hq with hq | hq
    · exact h.queue q hq
    · rwa [List.mem_singleton.mp hq]

theorem drop (h : Solo rules jobs pool) (position : Nat) (holds : Bool) :
    Solo rules jobs (pool.drop position holds) := by
  have hdropped : Solo rules jobs
      { pool with dropped := pool.dropped ++ [⟨position, pool.now⟩] } :=
    ⟨h.queue, h.running, h.agenda, h.ended⟩
  unfold Pool.drop
  dsimp only
  split
  · exact hdropped.release hbudget position
  · exact hdropped

/-- Whatever happens next, the jobs wait and go on as they do alone. -/
theorem next (h : Solo rules jobs pool)
    (hnext : pool.next? rules = some after) : Solo rules jobs after := by
  cases happens_of_next? hnext with
  | arrives hagenda hafter => exact hafter ▸ (h.tail hagenda).arrive hbudget (h.head hagenda)
  | resumes hagenda hafter => exact hafter ▸ (h.tail hagenda).resume hbudget (h.head hagenda)
  | drops hagenda hafter => exact hafter ▸ (h.tail hagenda).drop hbudget ..
  | minds hagenda hjob hminds => exact (h.tail hagenda).minds hminds
  | advances hagenda htime hafter => exact hafter ▸ h.advance hagenda htime

end Budget

end Solo

end Places

theorem solo_filled (rules : Rules σ β) (last : Option Rat) (now : Rat) (state : σ)
    (jobs : List (Job α β)) : Solo rules jobs (filled rules last now state jobs) := by
  refine ⟨nofun, nofun, fun next hnext ↦ ?_, nofun⟩
  obtain ⟨j, hj, rfl⟩ := List.mem_map.mp hnext
  exact List.mem_zipIdx_iff_getElem?.mp hj

/-- On the whole way of a run, the jobs wait and go on as they do alone, from the instants at which
they get their slots. -/
theorem Leads.solo {last : Option Rat} {now : Rat} {state : σ}
    (h : Leads rules (opened rules last now state jobs) pool)
    (hbudget : ∀ job ∈ jobs, ∀ b, job.budget = some b → 0 ≤ b) : Solo rules jobs pool :=
  h.keeps (fun _ _ hnext hpool ↦ hpool.next hbudget hnext)
    ((solo_filled rules last now state jobs).minds (minds_opened ..))

end Pool

end Admission
