import Admission.Exchange.Process
import Admission.Metrics

/-!
Processes in time. The clock counts seconds and only waiting moves it: a request waits for its
answer, and a pause for its end. A process can be given a last instant, at which it is stopped if it
still waits then. Those who share the time take turns at each instant, and an answer may let some
turns pass.
-/

set_option autoImplicit false
set_option relaxedAutoImplicit false

namespace Admission

/-- An answer, how long it takes in seconds, and how many turns of its request pass at the instant
of its arrival. -/
structure Delivery where
  answer : Answer
  delay : Rat
  turns : Nat := 0

/-- A provider as seen from outside: its state tells how it answers a request that is sent at some
instant, and the answer may change the state. -/
structure Responder (σ : Type) where
  respond : Rat → σ → Request → Delivery × σ

inductive Occurrence
  | sent (request : Request)
  | noticed (n : Notice)
  | counted (c : Count)
  deriving DecidableEq

structure Event where
  time : Rat
  what : Occurrence
  deriving DecidableEq

/-- Events in the order in which they happen. -/
abbrev Trace := List Event

namespace Trace

def notices (trace : Trace) : List (Rat × Notice) :=
  trace.filterMap fun e ↦ match e.what with
    | .noticed n => some (e.time, n)
    | _ => none

def requests (trace : Trace) : List (Rat × Request) :=
  trace.filterMap fun e ↦ match e.what with
    | .sent r => some (e.time, r)
    | _ => none

def counts (trace : Trace) : List Count :=
  trace.filterMap fun e ↦ match e.what with
    | .counted c => some c
    | _ => none

/-- The counters after the counts of a trace. -/
def addTo (trace : Trace) (metrics : Metrics) : Metrics :=
  trace.counts.foldl Metrics.add metrics

end Trace

/-- How many seconds something lasts: none if the number is negative. -/
def lasting (seconds : Rat) : Rat :=
  if seconds < 0 then 0 else seconds

/-- How many seconds a wait lasts, if it ends; one for what is no number is over at once. -/
def duration? (seconds : Binary64) : Option Rat :=
  match seconds with
  | .infinite false => none
  | x => some (lasting (x.toRat?.getD 0))

/-- When a wait of some seconds that begins now is over; a wait without end never is. -/
def wakeAfter (now : Rat) (seconds : Binary64) : Option Rat :=
  (duration? seconds).map (now + ·)

/-- When the answer of a request that is sent now arrives. -/
def Delivery.arrival (d : Delivery) (now : Rat) : Rat :=
  now + lasting d.delay

/-- The answer is there as soon as the request is sent, and nobody waits for it. -/
def Delivery.isAtOnce (d : Delivery) : Bool :=
  d.delay ≤ 0 && d.turns = 0

namespace Process

variable {α σ : Type}

/-- A process that is done, or waits and goes on at some instant after some turns, if it ever
does. -/
inductive Settled (α : Type)
  | done (result : α)
  | waiting (wake : Option Rat) (turns : Nat) (rest : Process α)

/-- What happens at one instant, the provider's state after it, and how the process is left. -/
structure Settlement (α σ : Type) where
  trace : Trace
  state : σ
  left : Settled α

def Settlement.after {α σ : Type} (what : Event) (s : Settlement α σ) : Settlement α σ :=
  { s with trace := what :: s.trace }

/-- Runs a process up to its next wait. -/
def settle (r : Responder σ) (now : Rat) (state : σ) : Process α → Settlement α σ
  | done result => ⟨[], state, .done result⟩
  | notice n rest => (rest.settle r now state).after ⟨now, .noticed n⟩
  | ask request next =>
    let (delivery, state) := r.respond now state request
    let rest := next delivery.answer
    if delivery.isAtOnce then (rest.settle r now state).after ⟨now, .sent request⟩
    else
      ⟨[⟨now, .sent request⟩], state, .waiting (some (delivery.arrival now)) delivery.turns rest⟩
  | pause seconds rest => ⟨[], state, .waiting (wakeAfter now seconds) 0 rest⟩

/-- How a run ends: with a result, stopped at the last instant, or never. -/
inductive Ending (α : Type)
  | finished (time : Rat) (result : α)
  | stopped (time : Rat)
  | never (time : Rat)

/-- The instant at which a run ends; for one that never ends, the last at which something
happens. -/
def Ending.time {α : Type} : Ending α → Rat
  | finished time _ => time
  | stopped time => time
  | never time => time

structure Run (α σ : Type) where
  trace : Trace
  state : σ
  ending : Ending α

def Run.after {α σ : Type} (what : Event) (run : Run α σ) : Run α σ :=
  { run with trace := what :: run.trace }

/-- An instant is past the last one. -/
def isPast (last : Option Rat) (time : Rat) : Bool :=
  match last with
  | some t => t < time
  | none => false

/-- An instant is the last one or past it. -/
def isOver (last : Option Rat) (time : Rat) : Bool :=
  match last with
  | some t => t ≤ time
  | none => false

/-- Runs a process from some instant on, at most up to the last one. Nothing that it waits for comes
in time if it only comes at the last instant, but an answer that is there at once does. -/
def run (r : Responder σ) (last : Option Rat) (now : Rat) (state : σ) : Process α → Run α σ
  | done result => ⟨[], state, .finished now result⟩
  | notice n rest => (rest.run r last now state).after ⟨now, .noticed n⟩
  | ask request next =>
    let (delivery, state) := r.respond now state request
    let wake := delivery.arrival now
    if isOver last wake && !delivery.isAtOnce then
      ⟨[⟨now, .sent request⟩], state, .stopped (last.getD now)⟩
    else ((next delivery.answer).run r last wake state).after ⟨now, .sent request⟩
  | pause seconds rest =>
    match wakeAfter now seconds, last with
    | some wake, _ =>
      if isOver last wake then ⟨[], state, .stopped (last.getD now)⟩
      else rest.run r last wake state
    | none, some t => ⟨[], state, .stopped t⟩
    | none, none => ⟨[], state, .never now⟩

/-- A process that waits has one wait less before it. -/
theorem Obeys.settle {sends : Request → Prop} {pauses : Binary64 → Prop} {r : Responder σ}
    {now : Rat} {state : σ} {p rest : Process α} {wake : Option Rat} {turns n : Nat}
    (hp : p.Obeys sends pauses n) (h : (p.settle r now state).left = .waiting wake turns rest) :
    0 < n ∧ rest.Obeys sends pauses (n - 1) := by
  induction hp generalizing state with
  | done => cases h
  | notice _ _ ih => exact ih h
  | @ask request next n _ hnext ih =>
    refine ⟨Nat.succ_pos n, ?_⟩
    simp only [Process.settle] at h
    split at h
    · exact (ih _ h).2.mono (Nat.sub_le n 1)
    · cases h
      exact hnext _
  | pause _ hrest =>
    cases h
    exact ⟨Nat.succ_pos _, hrest⟩

end Process

end Admission
