import Admission.Exchange.Timeline

/-!
Pools: jobs that share a provider, of which only so many run at the same time, and the call that
waits for them. All of them take turns in a loop. What has something to do is on an agenda and does
it in its turn, and whatever it wakes by that is put at the end of the agenda. Only when the agenda
is empty does the clock go on, up to the next instant for which something waits. Those who wait for
the same instant get their turns in the order in which they came to wait, behind the call if it is
cancelled then.

Jobs ask for a slot in their order and get one in that order; a job that gives its slot back hands
it on to the one that has waited longest. The time budget of a job begins with its slot. Its end is
put on the agenda as a report to the call; the report puts the call on the agenda, and in its turn
the call looks at all the ends that there are by then. If one of them breaks the pool, the call
cancels the jobs that have not come to their ends, and so it does if it is cancelled itself. It is
left when there is none of them any more.
-/

set_option autoImplicit false
set_option relaxedAutoImplicit false

namespace Admission

/-- A process to run, the seconds that it may take, and what its end means; a job that used its
budget up ends without a result of its process. -/
structure Job (α β : Type) where
  process : Process α
  waits : Nat
  bounded : process.WaitsAtMost waits
  budget : Option Rat
  conclude : Option α → List Occurrence × β

/-- A job that holds a slot. It waits for an instant and lets some turns pass then, but it does not
wait past its deadline. -/
structure Running (α β : Type) where
  position : Nat
  wake : Option Rat
  turns : Nat
  deadline : Option Rat
  rest : Process α
  waits : Nat
  bounded : rest.WaitsAtMost waits
  conclude : Option α → List Occurrence × β

/-- When something became of a job. -/
structure Stamp where
  position : Nat
  time : Rat
  deriving DecidableEq

/-- The result of a job, and when it ended. -/
structure Ended (β : Type) where
  position : Nat
  time : Rat
  result : β

/-- The earlier of two instants, of which either may never come. -/
def earlier : Option Rat → Option Rat → Option Rat
  | some a, some b => some (if b < a then b else a)
  | some a, none => some a
  | none, b => b

namespace Running

variable {α β : Type}

/-- A job that begins. -/
def ofJob (position : Nat) (job : Job α β) (now : Rat) : Running α β :=
  { position, wake := some now, turns := 0, deadline := job.budget.map (now + ·)
    rest := job.process, waits := job.waits, bounded := job.bounded, conclude := job.conclude }

/-- When something happens to a job next. -/
def due (r : Running α β) : Option Rat :=
  earlier r.wake r.deadline

/-- The wait is over before the deadline. -/
def wakesInTime (r : Running α β) : Bool :=
  match r.wake with
  | some wake => !Process.isOver r.deadline wake
  | none => false

end Running

/-- What there can be on an agenda: a job that comes and asks for a slot, one that goes on with its
slot, in time or because its budget is used up, and one that was cancelled and comes to its end. The
others are about the call. An end is reported to it, with its number; it looks at the ends; it is
cancelled; it looks whether a cancelled job is left. -/
inductive Handle (α β : Type)
  | arrives (position : Nat) (job : Job α β)
  | resumes (r : Running α β) (inTime : Bool)
  | drops (position : Nat) (holds : Bool)
  | reports (number : Nat)
  | collects
  | cancels
  | gathers

/-- The job on an agenda, and whether it holds a slot. -/
def Handle.job? {α β : Type} : Handle α β → Option (Nat × Bool)
  | arrives position _ => some (position, false)
  | resumes r _ => some (r.position, true)
  | drops position holds => some (position, holds)
  | _ => none

/-- What is to be done, in this order. -/
abbrev Agenda (α β : Type) := List (Handle α β)

/-- The jobs on an agenda, and which of them hold slots. -/
def Agenda.jobs {α β : Type} (agenda : Agenda α β) : List (Nat × Bool) :=
  agenda.filterMap Handle.job?

/-- Why a pool is left. -/
inductive Halt
  | completed
  | broken
  | cancelled
  | stuck
  deriving DecidableEq, Repr

/-- How far a call has come. It has looked at the first ends and waits for the report of another
one, or such a report has called it; it waits for the jobs that it cancelled; it is left. -/
inductive Call
  | listens (seen : Nat)
  | called
  | gathers (halt : Halt)
  | left (halt : Halt) (time : Rat)
  deriving DecidableEq, Repr

structure Pool (σ α β : Type) where
  now : Rat
  state : σ
  /-- The slots that no job holds. -/
  free : Nat
  /-- The jobs that wait for a slot, the longest waiting one first. -/
  queue : List (Nat × Job α β)
  /-- The jobs that wait for an instant. -/
  running : List (Running α β)
  agenda : Agenda α β
  call : Call
  /-- When the call is cancelled, if that is still to come. -/
  cancelAt : Option Rat
  /-- The jobs that got a slot, in the order in which they did. -/
  begun : List Stamp := []
  /-- The jobs that gave a slot back. -/
  released : List Stamp := []
  ended : List (Ended β) := []
  /-- The jobs that came to their ends because they were cancelled. -/
  dropped : List Stamp := []
  trace : Trace := []

namespace Pool

variable {σ α β : Type}

/-- What a pool is given: how the provider answers, how many slots there are, and which results
break the pool. -/
structure Rules (σ β : Type) where
  responder : Responder σ
  slots : Nat
  breaks : β → Bool

/-- The jobs that have not come to their ends, and which of them hold slots. -/
def unfinished (pool : Pool σ α β) : List (Nat × Bool) :=
  pool.running.map (fun r ↦ (r.position, true)) ++
    (pool.queue.map (fun q ↦ (q.1, false)) ++ pool.agenda.jobs)

/-- A result has broken the pool. -/
def isBroken (rules : Rules σ β) (pool : Pool σ α β) : Bool :=
  pool.ended.any fun e ↦ rules.breaks e.result

/-- Puts something at the end of the agenda. -/
def schedule (pool : Pool σ α β) (handle : Handle α β) : Pool σ α β :=
  { pool with agenda := pool.agenda ++ [handle] }

/-! ### What jobs do -/

/-- A job lets a turn pass. -/
def pass (pool : Pool σ α β) (r : Running α β) (inTime : Bool) : Pool σ α β :=
  pool.schedule (.resumes { r with turns := r.turns - 1 } inTime)

/-- A job waits. If there is nothing left to wait for, it goes on after a turn at least. -/
def await (pool : Pool σ α β) (r : Running α β) : Pool σ α β :=
  if Process.isOver r.due pool.now then pool.pass r r.wakesInTime
  else { pool with running := pool.running ++ [r] }

/-- Gives a slot to a job, which goes on in its next turn. -/
def grant (pool : Pool σ α β) (position : Nat) (job : Job α β) : Pool σ α β :=
  let pool : Pool σ α β := { pool with begun := pool.begun ++ [⟨position, pool.now⟩] }
  pool.schedule (.resumes (.ofJob position job pool.now) true)

/-- Takes the slot of a job back, and gives it to the job that has waited longest. -/
def release (pool : Pool σ α β) (position : Nat) : Pool σ α β :=
  let pool : Pool σ α β := { pool with released := pool.released ++ [⟨position, pool.now⟩] }
  match pool.queue with
  | [] => { pool with free := pool.free + 1 }
  | (next, job) :: queue => grant { pool with queue } next job

/-- Enters the end of a job, and has it reported. -/
def finish (pool : Pool σ α β) (position : Nat) (conclusion : List Occurrence × β) :
    Pool σ α β :=
  let number := pool.ended.length
  let pool : Pool σ α β := { pool with
    trace := pool.trace ++ conclusion.1.map fun what ↦ ⟨pool.now, what⟩
    ended := pool.ended ++ [⟨position, pool.now, conclusion.2⟩] }
  (pool.release position).schedule (.reports number)

/-- Goes on with a job, up to its next wait. -/
def carryOn (rules : Rules σ β) (pool : Pool σ α β) (r : Running α β) : Pool σ α β :=
  match h : r.rest.settle rules.responder pool.now pool.state with
  | ⟨trace, state, .done result⟩ =>
    finish { pool with trace := pool.trace ++ trace, state } r.position (r.conclude (some result))
  | ⟨trace, state, .waiting wake turns rest⟩ =>
    have left : (r.rest.settle rules.responder pool.now pool.state).left =
        .waiting wake turns rest := by rw [h]
    await { pool with trace := pool.trace ++ trace, state }
      { r with wake, turns, rest, waits := r.waits - 1, bounded := (r.bounded.settle left).2 }

/-- A job asks for a slot: it begins if one is free and nobody waits for it, and waits else. -/
def arrive (rules : Rules σ β) (pool : Pool σ α β) (position : Nat) (job : Job α β) : Pool σ α β :=
  if 0 < pool.free && pool.queue.isEmpty then
    carryOn rules
      { pool with free := pool.free - 1, begun := pool.begun ++ [⟨position, pool.now⟩] }
      (.ofJob position job pool.now)
  else { pool with queue := pool.queue ++ [(position, job)] }

/-- A job with a slot goes on unless it lets more turns pass, or ends because its budget is used
up. -/
def resume (rules : Rules σ β) (pool : Pool σ α β) (r : Running α β) (inTime : Bool) :
    Pool σ α β :=
  if inTime then if 0 < r.turns then pool.pass r true else pool.carryOn rules r
  else pool.finish r.position (r.conclude none)

/-- A cancelled job comes to its end, without a result. If it holds a slot, it gives it back. -/
def drop (pool : Pool σ α β) (position : Nat) (holds : Bool) : Pool σ α β :=
  let pool : Pool σ α β := { pool with dropped := pool.dropped ++ [⟨position, pool.now⟩] }
  if holds then pool.release position else pool

/-! ### What the call does -/

/-- The call is told of an end; it is called unless it has looked at it already. -/
def report (pool : Pool σ α β) (number : Nat) : Pool σ α β :=
  match pool.call with
  | .listens seen =>
    if seen ≤ number then schedule { pool with call := .called } .collects else pool
  | _ => pool

/-- The call cancels all jobs that have not come to their ends, and waits for them. What else was on
the agenda was for itself, and nobody looks at it any more. -/
def cancel (pool : Pool σ α β) (halt : Halt) : Pool σ α β :=
  { pool with
    queue := [], running := [], call := .gathers halt, cancelAt := none
    agenda := pool.unfinished.map (fun j ↦ .drops j.1 j.2) ++ [.gathers] }

/-- The call is left. -/
def leave (pool : Pool σ α β) (halt : Halt) : Pool σ α β :=
  { pool with call := .left halt pool.now, cancelAt := none }

/-- The call looks at the ends that there are. -/
def collect (rules : Rules σ β) (pool : Pool σ α β) : Pool σ α β :=
  match pool.call with
  | .called =>
    if pool.isBroken rules then pool.cancel .broken
    else if pool.unfinished.isEmpty then pool.leave .completed
    else { pool with call := .listens pool.ended.length }
  | _ => pool

/-- The call is cancelled. -/
def giveUp (pool : Pool σ α β) : Pool σ α β :=
  match pool.call with
  | .listens _ => pool.cancel .cancelled
  | .called => pool.cancel .cancelled
  | _ => pool

/-- The call is left if all the jobs that it cancelled have come to their ends. -/
def gather (pool : Pool σ α β) : Pool σ α β :=
  match pool.call with
  | .gathers halt => if pool.unfinished.isEmpty then pool.leave halt else pool
  | _ => pool

/-! ### The loop -/

/-- Does what is on the agenda. -/
def perform (rules : Rules σ β) (pool : Pool σ α β) : Handle α β → Pool σ α β
  | .arrives position job => pool.arrive rules position job
  | .resumes r inTime => pool.resume rules r inTime
  | .drops position holds => pool.drop position holds
  | .reports number => pool.report number
  | .collects => pool.collect rules
  | .cancels => pool.giveUp
  | .gathers => pool.gather

/-- Cancels the call if it is time for that. -/
def callOff (pool : Pool σ α β) : Pool σ α β :=
  if Process.isOver pool.cancelAt pool.now then schedule { pool with cancelAt := none } .cancels
  else pool

/-- The next instant for which something waits. -/
def wakeTime? (pool : Pool σ α β) : Option Rat :=
  (pool.running.map Running.due).foldl earlier pool.cancelAt

/-- Lets the clock go on to some instant, for which some jobs have waited. -/
def advance (pool : Pool σ α β) (time : Rat) : Pool σ α β :=
  pool.running.foldl await (callOff { pool with now := time, running := [] })

/-- What happens next, if anything does. -/
def next? (rules : Rules σ β) (pool : Pool σ α β) : Option (Pool σ α β) :=
  match pool.agenda with
  | handle :: agenda => some (perform rules { pool with agenda } handle)
  | [] => pool.wakeTime?.map pool.advance

/-- A pool to which all jobs come in their order. -/
def filled (rules : Rules σ β) (last : Option Rat) (now : Rat) (state : σ) (jobs : List (Job α β)) :
    Pool σ α β :=
  { now, state, free := rules.slots, queue := [], running := []
    agenda := jobs.zipIdx.map fun j ↦ .arrives j.2 j.1
    call := .listens 0, cancelAt := last }

/-- A pool at its first instant. Without a job there is nothing to wait for. -/
def opened (rules : Rules σ β) (last : Option Rat) (now : Rat) (state : σ)
    (jobs : List (Job α β)) : Pool σ α β :=
  let pool := filled rules last now state jobs
  if jobs.isEmpty then pool.leave .completed else pool.callOff

end Pool

end Admission
