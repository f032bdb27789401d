import Admission.Exchange.Play
import Admission.Probe.Basic

/-!
Probing all entries of a team whitelist at once, as far as the slots reach. The first failure that
is seen stops the fan-out: the probes that have not ended are cancelled, and the answers of the
others are kept, in the order of the whitelist.
-/

set_option autoImplicit false
set_option relaxedAutoImplicit false

namespace Admission.Probe

/-- The job of an entry. -/
def job (settings : ProviderSettings) (user : User) (token : Tokens) (entry : String) :
    Job (Except Problem Bool) (Except Fault Membership) :=
  match Group.ofEntry? entry with
  | none =>
    { process := .done (.ok false), waits := 0, bounded := .done _ 0, budget := none
      conclude := fun _ ↦ malformed entry }
  | some group =>
    { process := ask settings user token group
      waits := waits settings
      bounded := ask_waitsAtMost user token group
      budget := budget settings
      conclude := conclude settings user.username entry group }

/-- A failure or a fault stops the fan-out. -/
def stops : Except Fault Membership → Bool
  | .ok m => m.error?.isSome
  | .error _ => true

variable {σ : Type}

def rules (responder : Responder σ) (settings : ProviderSettings) :
    Pool.Rules σ (Except Fault Membership) :=
  { responder, slots := settings.probeConcurrency, breaks := stops }

/-- How a fan-out ends: with answers, with a fault, or by being given up. -/
inductive Outcome
  | answers (results : List Membership)
  | faulty (f : Fault)
  | cancelled
  | stuck

/-- What a fan-out does and how it ends. -/
structure Fanout (σ : Type) where
  time : Rat
  state : σ
  trace : Trace
  outcome : Outcome

/-- The answers of a pool, unless one of them is a fault. -/
def gather (results : List (Except Fault Membership)) : Outcome :=
  match results.mapM id with
  | .ok answers => .answers answers
  | .error f => .faulty f

/-- Probes the entries from some instant on; the call is cancelled at the last one. -/
def fanOut (responder : Responder σ) (settings : Settings) (user : User) (token : Tokens)
    (last : Option Rat) (now : Rat) (state : σ) : Fanout σ :=
  let entries := settings.whitelist.teams
  let (pool, halt) := Pool.run (rules responder settings.provider) last now state
    (entries.map (job settings.provider user token))
  let outcome := match halt with
    | .cancelled => .cancelled
    | .stuck => .stuck
    | _ => gather (pool.results entries.length)
  { time := pool.time, state := pool.state, trace := pool.trace, outcome }

end Admission.Probe
