import Admission.Exchange.Play
import Admission.Proofs.Exchange.Deadline
import Mathlib.Data.List.Basic
import Mathlib.Logic.Relation

/-!
# What happens next in a pool

Something of a pool changes because the first entry of its agenda is performed, or because the
agenda is empty and the clock goes on (`next?_cases`). `carryOn_done` and `carryOn_waiting` say all
that going on with a job can do, so that no later proof opens it. `Leads` relates a pool to those
that it comes to, and `play` leads to one in which nothing can happen any more (`leads_play`).

The jobs that have not come to their ends are spread over the pool. The last section says how each
change moves them, in whatever order.
-/

set_option autoImplicit false
set_option relaxedAutoImplicit false

namespace Admission

/-! ### The earlier of two instants -/

theorem earlier_le_left {a : Option Rat} {s : Rat} (b : Option Rat) (h : a = some s) :
    ∃ t, earlier a b = some t ∧ t ≤ s := by
  subst h
  rcases b with _ | u
  · exact ⟨s, rfl, le_refl s⟩
  · by_cases hlt : u < s
    · exact ⟨u, congrArg some (if_pos hlt), hlt.le⟩
    · exact ⟨s, congrArg some (if_neg hlt), le_refl s⟩

theorem earlier_le_right {b : Option Rat} {s : Rat} (a : Option Rat) (h : b = some s) :
    ∃ t, earlier a b = some t ∧ t ≤ s := by
  subst h
  rcases a with _ | u
  · exact ⟨s, rfl, le_refl s⟩
  · by_cases hlt : s < u
    · exact ⟨s, congrArg some (if_pos hlt), le_refl s⟩
    · exact ⟨u, congrArg some (if_neg hlt), not_lt.mp hlt⟩

theorem earlier_eq_none_iff {a b : Option Rat} : earlier a b = none ↔ a = none ∧ b = none := by
  rcases a with _ | s <;> rcases b with _ | t <;> simp [earlier]

/-! ### What is on an agenda -/

/-- A job comes, or goes on. -/
def Handle.isLive {α β : Type} : Handle α β → Bool
  | arrives .. => true
  | resumes .. => true
  | _ => false

/-- The position of a job that comes. -/
def Handle.arrival? {α β : Type} : Handle α β → Option Nat
  | arrives position _ => some position
  | _ => none

/-- What is about the call is no job. -/
theorem Handle.of_job?_eq_none {α β : Type} {handle : Handle α β} (h : handle.job? = none) :
    handle.isLive = false ∧ handle.arrival? = none := by
  cases handle with
  | arrives => cases h
  | resumes => cases h
  | drops => cases h
  | reports => exact ⟨rfl, rfl⟩
  | collects => exact ⟨rfl, rfl⟩
  | cancels => exact ⟨rfl, rfl⟩
  | gathers => exact ⟨rfl, rfl⟩

/-- The jobs on an agenda that are still to come, in their order. -/
def Agenda.arrivals {α β : Type} (agenda : Agenda α β) : List Nat :=
  agenda.filterMap Handle.arrival?

namespace Pool

variable {σ α β : Type} {rules : Rules σ β} {pool after : Pool σ α β}

/-! ### Putting something on the agenda -/

theorem mem_schedule_iff {next handle : Handle α β} :
    next ∈ (pool.schedule handle).agenda ↔ next = handle ∨ next ∈ pool.agenda :=
  List.mem_append.trans (or_comm.trans (or_congr_left List.mem_singleton))

theorem arrivals_schedule {handle : Handle α β} (h : handle.arrival? = none) :
    (pool.schedule handle).agenda.arrivals = pool.agenda.arrivals := by
  unfold Agenda.arrivals schedule
  rw [List.filterMap_append, List.filterMap_cons_none h, List.filterMap_nil, List.append_nil]

theorem jobs_schedule (pool : Pool σ α β) (handle : Handle α β) :
    (pool.schedule handle).agenda.jobs.Perm (handle.job?.toList ++ pool.agenda.jobs) :=
  (List.perm_append_comm.filterMap Handle.job?).trans (.of_eq (Agenda.jobs_cons handle _))

/-! ### Giving a slot back -/

/-- A slot for which nobody waits is free. -/
theorem release_of_nil (h : pool.queue = []) (position : Nat) :
    pool.release position =
      { pool with free := pool.free + 1, released := pool.released ++ [⟨position, pool.now⟩] } := by
  unfold release
  dsimp only
  split
  · rfl
  · rename_i hqueue
    rw [h] at hqueue
    cases hqueue

/-- The job that has waited longest gets the slot. -/
theorem release_of_cons {next : Nat} {job : Job α β} {queue : List (Nat × Job α β)}
    (h : pool.queue = (next, job) :: queue) (position : Nat) :
    pool.release position =
      grant { pool with released := pool.released ++ [⟨position, pool.now⟩], queue } next job := by
  unfold release
  dsimp only
  split
  · rename_i hqueue
    rw [h] at hqueue
    cases hqueue
  · rename_i hqueue
    rw [h] at hqueue
    cases hqueue
    rfl

/-- If nobody waits for a slot, a job that was cancelled comes to its end without anything else. -/
theorem exists_drop (h : pool.queue = []) (position : Nat) (holds : Bool) :
    ∃ free released dropped, pool.drop position holds = { pool with free, released, dropped } := by
  let dropped : Pool σ α β := { pool with dropped := pool.dropped ++ [⟨position, pool.now⟩] }
  have hqueue : dropped.queue = [] := h
  cases holds with
  | false => exact ⟨pool.free, pool.released, dropped.dropped, rfl⟩
  | true => exact ⟨_, _, _, release_of_nil hqueue position⟩

/-! ### Going on -/

section CarryOn

variable {r : Running α β} {trace : Trace} {state : σ}

/-- A process that comes to its end ends the job. -/
theorem carryOn_done {result : α}
    (h : r.rest.settle rules.responder pool.now pool.state = ⟨trace, state, .done result⟩) :
    pool.carryOn rules r =
      finish { pool with trace := pool.trace ++ trace, state } r.position
        (r.conclude (some result)) := by
  unfold carryOn
  split
  · rename_i heq
    rw [h] at heq
    cases heq
    rfl
  · rename_i heq
    rw [h] at heq
    cases heq

/-- A process that waits keeps the slot of its job. -/
theorem carryOn_waiting {wake : Option Rat} {turns : Nat} {rest : Process α}
    (h : r.rest.settle rules.responder pool.now pool.state =
      ⟨trace, state, .waiting wake turns rest⟩) :
    ∃ bounded : rest.WaitsAtMost (r.waits - 1),
      pool.carryOn rules r =
        await { pool with trace := pool.trace ++ trace, state }
          { r with wake, turns, rest, waits := r.waits - 1, bounded } := by
  have hleft : (r.rest.settle rules.responder pool.now pool.state).left =
      .waiting wake turns rest := by rw [h]
  refine ⟨(r.bounded.settle hleft).2, ?_⟩
  unfold carryOn
  split
  · rename_i heq
    rw [h] at heq
    cases heq
  · rename_i heq
    rw [h] at heq
    cases heq
    rfl

/-- Going on ends the job now, or lets it wait until now or later. -/
theorem carryOn_cases (rules : Rules σ β) (pool : Pool σ α β) (r : Running α β) :
    ∃ trace state, (∀ x ∈ trace, x.time = pool.now) ∧
      ((∃ result, pool.carryOn rules r =
          finish { pool with trace := pool.trace ++ trace, state } r.position
            (r.conclude (some result))) ∨
        ∃ s : Running α β, s.position = r.position ∧
          pool.carryOn rules r = await { pool with trace := pool.trace ++ trace, state } s) := by
  have hnow : ∀ x ∈ (r.rest.settle rules.responder pool.now pool.state).trace,
      x.time = pool.now := fun x ↦ Process.time_of_mem_settle
  rcases h : r.rest.settle rules.responder pool.now pool.state with
    ⟨trace, state, result | ⟨wake, turns, rest⟩⟩
  · rw [h] at hnow
    exact ⟨trace, state, hnow, .inl ⟨result, carryOn_done h⟩⟩
  · rw [h] at hnow
    obtain ⟨bounded, hcarry⟩ := carryOn_waiting h
    refine ⟨trace, state, hnow, .inr ⟨_, ?_, hcarry⟩⟩
    rfl

end CarryOn

/-! ### What happens next -/

/-- What happens next is on the agenda, or the clock goes on. -/
theorem next?_cases (h : pool.next? rules = some after) :
    (∃ handle agenda, pool.agenda = handle :: agenda ∧
        after = perform rules { pool with agenda } handle) ∨
      pool.agenda = [] ∧ ∃ time, pool.wakeTime? = some time ∧ after = pool.advance time := by
  unfold next? at h
  split at h
  · rename_i handle agenda hagenda
    exact .inl ⟨handle, agenda, hagenda, (Option.some.inj h).symm⟩
  · rename_i hagenda
    obtain ⟨time, htime, rfl⟩ := Option.map_eq_some_iff.mp h
    exact .inr ⟨hagenda, time, htime, rfl⟩

/-- No instant is before the earliest one. -/
theorem foldl_earlier_le {times : List (Option Rat)} {first : Option Rat} {time : Rat}
    (h : times.foldl earlier first = some time) :
    (∀ t, first = some t → time ≤ t) ∧ ∀ t, some t ∈ times → time ≤ t := by
  induction times generalizing first with
  | nil => exact ⟨fun t ht ↦ (Option.some.inj (h.symm.trans ht)).le, fun _ ↦ nofun⟩
  | cons next times ih =>
    obtain ⟨hfirst, htimes⟩ := ih h
    refine ⟨fun t ht ↦ ?_, fun t ht ↦ ?_⟩
    · obtain ⟨s, hs, hle⟩ := earlier_le_left next ht
      exact (hfirst s hs).trans hle
    · rcases List.mem_cons.mp ht with hnext | ht
      · obtain ⟨s, hs, hle⟩ := earlier_le_right first hnext.symm
        exact (hfirst s hs).trans hle
      · exact htimes t ht

/-- The clock goes on to the earliest instant for which something waits. -/
theorem wakeTime?_le {time : Rat} (h : pool.wakeTime? = some time) :
    (∀ t, pool.cancelAt = some t → time ≤ t) ∧
      ∀ r ∈ pool.running, ∀ t, r.due = some t → time ≤ t := by
  obtain ⟨hcancel, hrunning⟩ := foldl_earlier_le h
  exact ⟨hcancel, fun r hr t ht ↦ hrunning t (List.mem_map.mpr ⟨r, hr, ht⟩)⟩

/-- If there is no earliest instant, there is none at all. -/
theorem of_foldl_earlier_eq_none {times : List (Option Rat)} {first : Option Rat}
    (h : times.foldl earlier first = none) : first = none ∧ ∀ time ∈ times, time = none := by
  induction times generalizing first with
  | nil => exact ⟨h, fun _ ↦ nofun⟩
  | cons next times ih =>
    obtain ⟨hearlier, htimes⟩ := ih h
    obtain ⟨hfirst, hnext⟩ := earlier_eq_none_iff.mp hearlier
    exact ⟨hfirst, List.forall_mem_cons.mpr ⟨hnext, htimes⟩⟩

/-- If nothing happens next, nothing is on the agenda and nothing waits for an instant. -/
theorem of_next?_eq_none (h : pool.next? rules = none) :
    pool.agenda = [] ∧ pool.cancelAt = none ∧ ∀ r ∈ pool.running, r.due = none := by
  unfold next? at h
  split at h
  · cases h
  · rename_i hagenda
    obtain ⟨hcancel, hrunning⟩ := of_foldl_earlier_eq_none (Option.map_eq_none_iff.mp h)
    exact ⟨hagenda, hcancel, fun r hr ↦ hrunning _ (List.mem_map_of_mem hr)⟩

/-- The pools that a pool comes to. -/
def Leads (rules : Rules σ β) : Pool σ α β → Pool σ α β → Prop :=
  Relation.ReflTransGen fun pool after ↦ pool.next? rules = some after

/-- What everything that happens keeps is kept on the whole way. -/
theorem Leads.keeps {P : Pool σ α β → Prop} {later : Pool σ α β} (h : Leads rules pool later)
    (hnext : ∀ pool after : Pool σ α β, pool.next? rules = some after → P pool → P after)
    (hpool : P pool) : P later := by
  induction h with
  | refl => exact hpool
  | tail _ hstep ih => exact hnext _ _ hstep ih

/-- Letting turns pass is some of what happens next. -/
theorem leads_idle (rules : Rules σ β) (pool : Pool σ α β) :
    Leads rules pool (idle rules pool) := by
  fun_induction idle rules pool with
  | case1 => exact .refl
  | case2 pool handle agenda h hdelay hless ih =>
    refine .head ?_ ih
    unfold next?
    rw [h]
  | case3 => exact .refl

theorem play_eq (rules : Rules σ β) (pool : Pool σ α β) :
    play rules pool = ((idle rules pool).next? rules).elim (idle rules pool) (play rules) := by
  rw [play]
  split <;> simp only [Option.elim, *]

theorem idle_of_next?_eq_none (h : pool.next? rules = none) : idle rules pool = pool := by
  unfold idle
  split
  · rfl
  · rename_i hagenda
    unfold next? at h
    rw [hagenda] at h
    cases h

/-- Turns pass next, or no turn passes at all. -/
theorem idle_of_next?_eq_some (h : pool.next? rules = some after) :
    idle rules pool = idle rules after ∨ idle rules pool = pool := by
  unfold next? at h
  rw [idle.eq_def]
  split
  · exact .inr rfl
  · rename_i hagenda
    rw [hagenda] at h
    cases h
    split
    · exact .inl rfl
    · exact .inr rfl

theorem play_of_next?_eq_none (h : pool.next? rules = none) : play rules pool = pool := by
  rw [play_eq, idle_of_next?_eq_none h, h]
  rfl

theorem play_of_next?_eq_some (h : pool.next? rules = some after) :
    play rules pool = play rules after := by
  rcases idle_of_next?_eq_some h with hidle | hidle
  · rw [play_eq rules pool, hidle, ← play_eq]
  · rw [play_eq rules pool, hidle, h]
    rfl

/-- A play goes on as if it had begun on its way. -/
theorem play_of_leads {later : Pool σ α β} (h : Leads rules pool later) :
    play rules pool = play rules later := by
  induction h with
  | refl => rfl
  | tail _ hstep ih => rw [ih, play_of_next?_eq_some hstep]

/-- A play leads to a pool in which nothing happens any more. -/
theorem leads_play (rules : Rules σ β) (pool : Pool σ α β) :
    Leads rules pool (play rules pool) ∧ (play rules pool).next? rules = none := by
  fun_induction play rules pool with
  | case1 pool h => exact ⟨leads_idle rules pool, h⟩
  | case2 pool after h _ ih => exact ⟨(leads_idle rules pool).trans (.head h ih.1), ih.2⟩

/-- A play comes to a pool in which nothing happens any more, unless it is stopped on the way in one
of some kind. -/
theorem leads_until (rules : Rules σ β) (stops : Pool σ α β → Prop) (pool : Pool σ α β) :
    ∃ later, (later.next? rules = none ∨ stops later) ∧
      Relation.ReflTransGen (fun pool after ↦ ¬stops pool ∧ pool.next? rules = some after)
        pool later := by
  obtain ⟨hleads, hnone⟩ := leads_play rules pool
  unfold Leads at hleads
  generalize play rules pool = last at hleads hnone
  induction hleads using Relation.ReflTransGen.head_induction_on with
  | refl => exact ⟨_, .inl hnone, .refl⟩
  | @head pool after hnext _ ih =>
    by_cases hstops : stops pool
    · exact ⟨pool, .inr hstops, .refl⟩
    · obtain ⟨later, hlater, hway⟩ := ih
      exact ⟨later, hlater, .head ⟨hstops, hnext⟩ hway⟩

/-! ### The jobs that have not come to their ends -/

/-- The jobs that have not got a slot yet, in the order in which they will. -/
def waiting (pool : Pool σ α β) : List Nat :=
  pool.queue.map Prod.fst ++ pool.agenda.arrivals

theorem perm_front {γ : Type} (running queued job jobs : List γ) :
    (running ++ (queued ++ (job ++ jobs))).Perm (job ++ (running ++ (queued ++ jobs))) :=
  ((List.perm_append_comm_assoc queued job jobs).append_left running).trans
    (List.perm_append_comm_assoc running job _)

/-- Taking the first entry off the agenda takes its job away. -/
theorem unfinished_of_agenda {handle : Handle α β} {agenda : Agenda α β}
    (h : pool.agenda = handle :: agenda) :
    pool.unfinished.Perm (handle.job?.toList ++ unfinished { pool with agenda }) := by
  unfold unfinished
  rw [h, Agenda.jobs_cons]
  exact perm_front ..

theorem schedule_unfinished (pool : Pool σ α β) (handle : Handle α β) :
    (pool.schedule handle).unfinished.Perm (handle.job?.toList ++ pool.unfinished) := by
  unfold unfinished
  exact ((jobs_schedule pool handle).append_left _ |>.append_left _).trans (perm_front ..)

theorem pass_unfinished (pool : Pool σ α β) (r : Running α β) (inTime : Bool) :
    (pool.pass r inTime).unfinished.Perm ((r.position, true) :: pool.unfinished) :=
  schedule_unfinished ..

theorem await_unfinished (pool : Pool σ α β) (r : Running α β) :
    (pool.await r).unfinished.Perm ((r.position, true) :: pool.unfinished) := by
  unfold await
  split
  · exact pass_unfinished ..
  · unfold unfinished
    rw [List.map_append, List.append_assoc]
    exact List.perm_middle

theorem grant_unfinished (pool : Pool σ α β) (position : Nat) (job : Job α β) :
    (pool.grant position job).unfinished.Perm ((position, true) :: pool.unfinished) :=
  schedule_unfinished ..

/-- Jobs that wait on stay in the pool. -/
theorem foldl_await_unfinished (pool : Pool σ α β) (running : List (Running α β)) :
    (running.foldl await pool).unfinished.Perm
      (running.map (fun r ↦ (r.position, true)) ++ pool.unfinished) := by
  induction running generalizing pool with
  | nil => exact .refl _
  | cons r running ih =>
    refine (ih (pool.await r)).trans ?_
    exact ((await_unfinished pool r).append_left _).trans List.perm_middle

theorem callOff_unfinished (pool : Pool σ α β) : pool.callOff.unfinished.Perm pool.unfinished := by
  unfold callOff
  split
  · exact schedule_unfinished ..
  · exact .refl _

theorem advance_unfinished (pool : Pool σ α β) (time : Rat) :
    (pool.advance time).unfinished.Perm pool.unfinished :=
  (foldl_await_unfinished _ pool.running).trans ((callOff_unfinished _).append_left _)

/-- Cancelling the jobs that have not come to their ends leaves them to come to them. -/
theorem cancel_unfinished (pool : Pool σ α β) (halt : Halt) :
    (pool.cancel halt).unfinished = pool.unfinished := by
  have hdrops (jobs : List (Nat × Bool)) :
      Agenda.jobs (jobs.map (fun j ↦ (.drops j.1 j.2 : Handle α β)) ++ [.gathers]) = jobs := by
    induction jobs with
    | nil => rfl
    | cons j jobs ih => exact congrArg (j :: ·) ih
  exact hdrops pool.unfinished

end Pool

end Admission
