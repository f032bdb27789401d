import Admission.Exchange.Pool

/-!
Playing a pool until nothing can happen in it any more. That comes to an end: a job can let only so
many turns pass, and all else that happens takes some work away, since each job can wait only so
many times and the call looks only at new ends.
-/

set_option autoImplicit false
set_option relaxedAutoImplicit false

namespace Admission

/-- The work that something on an agenda stands for, with all that it can lead to. -/
def Handle.work {α β : Type} : Handle α β → Nat
  | arrives _ job => 2 * job.waits + 6
  | resumes r _ => 2 * r.waits + 4
  | drops _ _ => 1
  | reports _ => 3
  | collects => 2
  | cancels => 2
  | gathers => 1

theorem earlier_eq_or (a b : Option Rat) : earlier a b = a ∨ earlier a b = b := by
  rcases a with _ | s
  · exact .inr rfl
  · rcases b with _ | t
    · exact .inl rfl
    · by_cases hlt : t < s
      · exact .inr (congrArg some (if_pos hlt))
      · exact .inl (congrArg some (if_neg hlt))

theorem Handle.work_pos {α β : Type} (handle : Handle α β) : 0 < handle.work := by
  cases handle <;> exact Nat.succ_pos _

/-- The turns that something on an agenda lets pass. -/
def Handle.delay {α β : Type} : Handle α β → Nat
  | resumes r true => r.turns
  | _ => 0

theorem Agenda.jobs_cons {α β : Type} (next : Handle α β) (agenda : Agenda α β) :
    Agenda.jobs (next :: agenda) = next.job?.toList ++ agenda.jobs := by
  unfold Agenda.jobs
  rw [List.filterMap_cons]
  cases next.job? <;> rfl

namespace Pool

variable {σ α β : Type}

def agendaWork : Agenda α β → Nat
  | [] => 0
  | next :: agenda => next.work + agendaWork agenda

def agendaDelay : Agenda α β → Nat
  | [] => 0
  | next :: agenda => next.delay + agendaDelay agenda

def runningWork : List (Running α β) → Nat
  | [] => 0
  | r :: running => 2 * r.waits + 5 + runningWork running

def queuedWork : List (Nat × Job α β) → Nat
  | [] => 0
  | q :: queue => 2 * q.2.waits + 5 + queuedWork queue

def cancelWork : Option Rat → Nat
  | none => 0
  | some _ => 3

/-- The work that is left in a pool. -/
def work (pool : Pool σ α β) : Nat :=
  runningWork pool.running + queuedWork pool.queue + agendaWork pool.agenda +
    cancelWork pool.cancelAt

theorem runningWork_append (running more : List (Running α β)) :
    runningWork (running ++ more) = runningWork running + runningWork more := by
  induction running with
  | nil => simp only [List.nil_append, runningWork, Nat.zero_add]
  | cons r running ih => simp only [List.cons_append, runningWork, ih, Nat.add_assoc]

theorem queuedWork_append (queue more : List (Nat × Job α β)) :
    queuedWork (queue ++ more) = queuedWork queue + queuedWork more := by
  induction queue with
  | nil => simp only [List.nil_append, queuedWork, Nat.zero_add]
  | cons q queue ih => simp only [List.cons_append, queuedWork, ih, Nat.add_assoc]

theorem agendaWork_append (agenda more : Agenda α β) :
    agendaWork (agenda ++ more) = agendaWork agenda + agendaWork more := by
  induction agenda with
  | nil => simp only [List.nil_append, agendaWork, Nat.zero_add]
  | cons next agenda ih => simp only [List.cons_append, agendaWork, ih, Nat.add_assoc]

theorem agendaDelay_append (agenda more : Agenda α β) :
    agendaDelay (agenda ++ more) = agendaDelay agenda + agendaDelay more := by
  induction agenda with
  | nil => simp only [List.nil_append, agendaDelay, Nat.zero_add]
  | cons next agenda ih => simp only [List.cons_append, agendaDelay, ih, Nat.add_assoc]

theorem schedule_work (pool : Pool σ α β) (handle : Handle α β) :
    (pool.schedule handle).work = pool.work + handle.work := by
  simp only [schedule, work, agendaWork_append, agendaWork]
  omega

/-! ### Jobs -/

/-- A job that has come to its next wait has the work of one that waits; there is less of it if
nothing is left to wait for. -/
theorem await_work (pool : Pool σ α β) (r : Running α β) :
    (pool.await r).work ≤ pool.work + 2 * r.waits + 5 ∧
      (Process.isOver r.due pool.now = true →
        (pool.await r).work < pool.work + 2 * r.waits + 5) := by
  unfold await
  split
  · simp only [pass, schedule_work, Handle.work]
    omega
  · rename_i hdue
    refine ⟨?_, fun h ↦ absurd h hdue⟩
    simp only [work, runningWork_append, runningWork]
    omega

theorem grant_work (pool : Pool σ α β) (position : Nat) (job : Job α β) :
    (pool.grant position job).work = pool.work + 2 * job.waits + 4 := by
  simp only [grant, schedule_work, Handle.work, Running.ofJob]
  rfl

theorem release_work (pool : Pool σ α β) (position : Nat) :
    (pool.release position).work ≤ pool.work := by
  unfold release
  dsimp only
  split
  · exact Nat.le_refl _
  · rename_i next job queue hqueue
    rw [grant_work]
    simp only [work, hqueue, queuedWork]
    omega

theorem finish_work (pool : Pool σ α β) (position : Nat) (conclusion : List Occurrence × β) :
    (pool.finish position conclusion).work ≤ pool.work + 3 := by
  simp only [finish, schedule_work, Handle.work]
  exact Nat.add_le_add_right (release_work ..) 3

theorem carryOn_work (rules : Rules σ β) (pool : Pool σ α β) (r : Running α β) :
    (pool.carryOn rules r).work ≤ pool.work + 2 * r.waits + 3 := by
  unfold carryOn
  split
  · rename_i trace state result _
    have h := finish_work { pool with trace := pool.trace ++ trace, state } r.position
      (r.conclude (some result))
    simp only [work] at h ⊢
    omega
  · rename_i trace state wake turns rest h
    have hleft : (r.rest.settle rules.responder pool.now pool.state).left =
        .waiting wake turns rest := by rw [h]
    have hpos := (r.bounded.settle hleft).1
    have hwork := (await_work { pool with trace := pool.trace ++ trace, state }
      { r with wake, turns, rest, waits := r.waits - 1, bounded := (r.bounded.settle hleft).2 }).1
    simp only [work] at hwork ⊢
    omega

theorem arrive_work (rules : Rules σ β) (pool : Pool σ α β) (position : Nat) (job : Job α β) :
    (pool.arrive rules position job).work ≤ pool.work + 2 * job.waits + 5 := by
  unfold arrive
  split
  · have h := carryOn_work rules
      { pool with free := pool.free - 1, begun := pool.begun ++ [⟨position, pool.now⟩] }
      (.ofJob position job pool.now)
    simp only [work, Running.ofJob] at h ⊢
    omega
  · simp only [work, queuedWork_append, queuedWork]
    omega

/-- A job that goes on has less work then, if it lets no turn pass. -/
theorem resume_work (rules : Rules σ β) (pool : Pool σ α β) (r : Running α β) (inTime : Bool) :
    (pool.resume rules r inTime).work ≤ pool.work + 2 * r.waits + 4 ∧
      (Handle.delay (.resumes r inTime) = 0 →
        (pool.resume rules r inTime).work < pool.work + 2 * r.waits + 4) := by
  unfold resume
  split
  · split
    · rename_i hinTime hturns
      subst hinTime
      simp only [pass, schedule_work, Handle.work, Handle.delay]
      omega
    · have h := carryOn_work rules pool r
      omega
  · have h := finish_work pool r.position (r.conclude none)
    omega

theorem drop_work (pool : Pool σ α β) (position : Nat) (holds : Bool) :
    (pool.drop position holds).work ≤ pool.work := by
  unfold drop
  dsimp only
  split
  · exact release_work ..
  · exact Nat.le_refl _

/-! ### The call -/

theorem report_work (pool : Pool σ α β) (number : Nat) :
    (pool.report number).work ≤ pool.work + 2 := by
  unfold report
  split
  · split
    · rw [schedule_work]
      exact Nat.le_refl _
    · exact Nat.le_add_right _ _
  · exact Nat.le_add_right _ _

/-- There is work left for every job that has not come to its end. -/
theorem unfinished_length_le (pool : Pool σ α β) : pool.unfinished.length ≤ pool.work := by
  have hrunning : pool.running.length ≤ runningWork pool.running := by
    generalize pool.running = running
    induction running with
    | nil => exact Nat.le_refl _
    | cons r running ih =>
      simp only [runningWork, List.length_cons]
      omega
  have hqueue : pool.queue.length ≤ queuedWork pool.queue := by
    generalize pool.queue = queue
    induction queue with
    | nil => exact Nat.le_refl _
    | cons q queue ih =>
      simp only [queuedWork, List.length_cons]
      omega
  have hagenda : pool.agenda.jobs.length ≤ agendaWork pool.agenda := by
    generalize pool.agenda = agenda
    induction agenda with
    | nil => exact Nat.le_refl _
    | cons next agenda ih =>
      have hpos := next.work_pos
      rw [Agenda.jobs_cons, List.length_append, agendaWork]
      have hone : next.job?.toList.length ≤ 1 := by
        cases next.job? <;> simp
      omega
  simp only [unfinished, work, List.length_append, List.length_map]
  omega

theorem cancel_work (pool : Pool σ α β) (halt : Halt) :
    (pool.cancel halt).work ≤ pool.work + 1 := by
  have hdrops (jobs : List (Nat × Bool)) :
      agendaWork (jobs.map (fun j ↦ (.drops j.1 j.2 : Handle α β)) ++ [.gathers]) =
        jobs.length + 1 := by
    induction jobs with
    | nil => rfl
    | cons j jobs ih =>
      simp only [List.map_cons, List.cons_append, agendaWork, Handle.work, List.length_cons, ih]
      omega
  have hlength := pool.unfinished_length_le
  have hwork : (pool.cancel halt).work = pool.unfinished.length + 1 := by
    simp only [cancel, work, hdrops, runningWork, queuedWork, cancelWork, Nat.zero_add,
      Nat.add_zero]
  omega

theorem leave_work (pool : Pool σ α β) (halt : Halt) : (pool.leave halt).work ≤ pool.work := by
  exact Nat.add_le_add_left (Nat.zero_le _) _

theorem collect_work (rules : Rules σ β) (pool : Pool σ α β) :
    (pool.collect rules).work ≤ pool.work + 1 := by
  unfold collect
  split
  · split
    · exact cancel_work ..
    · split
      · exact Nat.le_succ_of_le (leave_work ..)
      · exact Nat.le_add_right _ _
  · exact Nat.le_add_right _ _

theorem giveUp_work (pool : Pool σ α β) : pool.giveUp.work ≤ pool.work + 1 := by
  unfold giveUp
  split
  · exact cancel_work ..
  · exact cancel_work ..
  · exact Nat.le_add_right _ _

theorem gather_work (pool : Pool σ α β) : pool.gather.work ≤ pool.work := by
  unfold gather
  split
  · split
    · exact leave_work ..
    · exact Nat.le_refl _
  · exact Nat.le_refl _

/-! ### The loop -/

theorem perform_work (rules : Rules σ β) (pool : Pool σ α β) {handle : Handle α β}
    (hdelay : handle.delay = 0) :
    (pool.perform rules handle).work < pool.work + handle.work := by
  cases handle with
  | arrives position job =>
    have h := arrive_work rules pool position job
    simp only [perform, Handle.work]
    omega
  | resumes r inTime =>
    have h := (resume_work rules pool r inTime).2 hdelay
    simp only [perform, Handle.work]
    omega
  | drops position holds => exact Nat.lt_succ_of_le (drop_work pool position holds)
  | reports number => exact Nat.lt_succ_of_le (report_work pool number)
  | collects => exact Nat.lt_succ_of_le (collect_work rules pool)
  | cancels => exact Nat.lt_succ_of_le (giveUp_work pool)
  | gathers => exact Nat.lt_succ_of_le (gather_work pool)

theorem callOff_work (pool : Pool σ α β) :
    pool.callOff.work ≤ pool.work ∧
      (Process.isOver pool.cancelAt pool.now = true → pool.callOff.work < pool.work) := by
  unfold callOff
  rcases hcancel : pool.cancelAt with _ | t
  · exact ⟨Nat.le_refl _, nofun⟩
  · split
    · rw [schedule_work]
      simp only [work, Handle.work, hcancel, cancelWork]
      omega
    · exact ⟨Nat.le_refl _, fun h ↦ absurd h ‹_›⟩

/-- Jobs that wait on have no more work than before, and less if one of them is due. -/
theorem foldl_await_work (pool : Pool σ α β) (running : List (Running α β)) :
    (running.foldl await pool).work ≤ pool.work + runningWork running ∧
      ((∃ r ∈ running, Process.isOver r.due pool.now = true) →
        (running.foldl await pool).work < pool.work + runningWork running) := by
  induction running generalizing pool with
  | nil => exact ⟨Nat.le_refl _, fun ⟨_, hr, _⟩ ↦ absurd hr List.not_mem_nil⟩
  | cons r running ih =>
    have hnow : (pool.await r).now = pool.now := by
      unfold await
      split <;> rfl
    obtain ⟨hle, hlt⟩ := ih (pool.await r)
    obtain ⟨hfirst, hdue⟩ := pool.await_work r
    simp only [List.foldl_cons, runningWork]
    refine ⟨by omega, ?_⟩
    rintro ⟨s, hs, hover⟩
    rcases List.mem_cons.mp hs with rfl | hs
    · have := hdue hover
      omega
    · have := hlt ⟨s, hs, hnow ▸ hover⟩
      omega

@[simp] theorem await_now (pool : Pool σ α β) (r : Running α β) :
    (pool.await r).now = pool.now := by
  unfold await
  split <;> rfl

/-- The earliest of some instants is one of them. -/
theorem exists_of_foldl_earlier {times : List (Option Rat)} {first : Option Rat} {time : Rat}
    (h : times.foldl earlier first = some time) : first = some time ∨ some time ∈ times := by
  induction times generalizing first with
  | nil => exact .inl h
  | cons next times ih =>
    rcases ih h with hearlier | hmem
    · rcases earlier_eq_or first next with heq | heq
      · exact .inl (heq ▸ hearlier)
      · exact .inr (List.mem_cons.mpr (.inl (heq ▸ hearlier).symm))
    · exact .inr (List.mem_cons_of_mem next hmem)

/-- The clock goes on to an instant for which something waits. -/
theorem exists_of_wakeTime? {pool : Pool σ α β} {time : Rat} (h : pool.wakeTime? = some time) :
    pool.cancelAt = some time ∨ ∃ r ∈ pool.running, r.due = some time := by
  simpa using exists_of_foldl_earlier h

@[simp] theorem callOff_now (pool : Pool σ α β) : pool.callOff.now = pool.now := by
  unfold callOff
  split <;> rfl

theorem advance_work {pool : Pool σ α β} {time : Rat} (h : pool.wakeTime? = some time) :
    (pool.advance time).work < pool.work := by
  let waiting : Pool σ α β := { pool with now := time, running := [] }
  have hwork : waiting.work + runningWork pool.running = pool.work := by
    simp only [waiting, work, runningWork]
    omega
  obtain ⟨hoff, hless⟩ := callOff_work waiting
  obtain ⟨hle, hlt⟩ := foldl_await_work waiting.callOff pool.running
  have hnow : waiting.callOff.now = time := callOff_now waiting
  have hover : Process.isOver (some time) time = true := decide_eq_true (Rat.le_refl)
  show (pool.running.foldl await waiting.callOff).work < pool.work
  rcases exists_of_wakeTime? h with hdue | ⟨r, hr, hdue⟩
  · have := hless (show Process.isOver pool.cancelAt time = true from hdue ▸ hover)
    omega
  · have := hlt ⟨r, hr, by rw [hdue, hnow]; exact hover⟩
    omega

/-- A job that lets a turn pass does nothing else. -/
theorem perform_of_delay {rules : Rules σ β} {handle : Handle α β} (pool : Pool σ α β)
    (h : 0 < handle.delay) :
    ∃ r, 0 < r.turns ∧ handle = .resumes r true ∧
      pool.perform rules handle = pool.pass r true := by
  cases handle with
  | resumes r inTime =>
    cases inTime with
    | true =>
      have hturns : 0 < r.turns := h
      exact ⟨r, hturns, rfl, by simp only [perform, resume, if_true, if_pos hturns]⟩
    | false => exact absurd h (Nat.lt_irrefl 0)
  | _ => exact absurd h (Nat.lt_irrefl 0)

/-- Lets turns pass while the first entry of the agenda asks for that. -/
def idle (rules : Rules σ β) (pool : Pool σ α β) : Pool σ α β :=
  match h : pool.agenda with
  | [] => pool
  | handle :: agenda =>
    if hdelay : 0 < handle.delay then
      have : agendaDelay (perform rules { pool with agenda } handle).agenda <
          agendaDelay pool.agenda := by
        obtain ⟨r, hturns, rfl, hpass⟩ := perform_of_delay { pool with agenda } hdelay
        rw [hpass, h]
        simp only [pass, schedule, agendaDelay_append, agendaDelay, Handle.delay]
        omega
      idle rules (perform rules { pool with agenda } handle)
    else pool
termination_by agendaDelay pool.agenda

/-- All that happens takes some work away, unless turns pass. -/
theorem next?_work {rules : Rules σ β} {pool after : Pool σ α β}
    (h : pool.next? rules = some after)
    (hidle : ∀ handle agenda, pool.agenda = handle :: agenda → handle.delay = 0) :
    after.work < pool.work := by
  unfold next? at h
  split at h
  · rename_i handle agenda hagenda
    cases h
    have hwork := perform_work rules { pool with agenda } (hidle handle agenda hagenda)
    refine Nat.lt_of_lt_of_eq hwork ?_
    simp only [work, hagenda, agendaWork]
    omega
  · obtain ⟨time, htime, rfl⟩ := Option.map_eq_some_iff.mp h
    exact advance_work htime

/-- Letting turns pass takes no work away, and no turn passes after it. -/
theorem idle_work (rules : Rules σ β) (pool : Pool σ α β) :
    (idle rules pool).work = pool.work ∧
      ∀ handle agenda, (idle rules pool).agenda = handle :: agenda → handle.delay = 0 := by
  fun_induction idle rules pool with
  | case1 pool h => exact ⟨rfl, fun _ _ h' ↦ by cases h.symm.trans h'⟩
  | case2 pool handle agenda h hdelay hless ih =>
    refine ⟨ih.1.trans ?_, ih.2⟩
    obtain ⟨r, hturns, rfl, hpass⟩ := perform_of_delay { pool with agenda } hdelay
    rw [hpass, pass, schedule_work]
    simp only [work, h, agendaWork, Handle.work]
    omega
  | case3 pool handle agenda h hdelay =>
    refine ⟨rfl, fun _ _ h' ↦ ?_⟩
    cases h.symm.trans h'
    exact Nat.eq_zero_of_not_pos hdelay

/-- Lets a pool go on until nothing can happen in it any more. -/
def play (rules : Rules σ β) (pool : Pool σ α β) : Pool σ α β :=
  match h : (idle rules pool).next? rules with
  | none => idle rules pool
  | some after =>
    have : after.work < pool.work := by
      obtain ⟨hwork, hidle⟩ := idle_work rules pool
      exact hwork ▸ next?_work h hidle
    play rules after
termination_by pool.work

/-- Why a pool was left. -/
def halt (pool : Pool σ α β) : Halt :=
  match pool.call with
  | .left halt _ => halt
  | _ => .stuck

/-- When a pool was left; for one that is not, its last instant. -/
def time (pool : Pool σ α β) : Rat :=
  match pool.call with
  | .left _ time => time
  | _ => pool.now

/-- Runs jobs from some instant on; the call is cancelled at the last one. -/
def run (rules : Rules σ β) (last : Option Rat) (now : Rat) (state : σ) (jobs : List (Job α β)) :
    Pool σ α β × Halt :=
  let pool := play rules (opened rules last now state jobs)
  (pool, pool.halt)

/-- The results of a pool in the order of its jobs. -/
def results (pool : Pool σ α β) (count : Nat) : List β :=
  (List.range count).filterMap fun position ↦
    (pool.ended.find? fun e ↦ e.position == position).map Ended.result

end Pool

end Admission
