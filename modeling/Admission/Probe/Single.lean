import Admission.Probe.Fanout

/-!
Probing one entry on its own, and asking about one group without a time budget.
-/

set_option autoImplicit false
set_option relaxedAutoImplicit false

namespace Admission.Probe

variable {σ : Type}

/-- The budget ends before the call is given up. -/
def endsFirst (deadline last : Option Rat) : Bool :=
  match deadline, last with
  | some d, some t => d < t
  | some _, none => true
  | none, _ => false

/-- The end of an entry's job that ran alone. -/
def closeRun {σ : Type} (job : Job (Except Problem Bool) (Except Fault Membership))
    (deadline last : Option Rat) (run : Process.Run (Except Problem Bool) σ) : Fanout σ :=
  let close (time : Rat) (conclusion : List Occurrence × Except Fault Membership) : Fanout σ :=
    { time, state := run.state
      trace := run.trace ++ conclusion.1.map fun what ↦ ⟨time, what⟩
      outcome := gather [conclusion.2] }
  match run.ending with
  | .finished time result => close time (job.conclude (some result))
  | .stopped time =>
    if endsFirst deadline last then close time (job.conclude none)
    else { time, state := run.state, trace := run.trace, outcome := .cancelled }
  | .never time => { time, state := run.state, trace := run.trace, outcome := .stuck }

/-- Probes an entry from some instant on, at most up to the last one. -/
def probeEntry (responder : Responder σ) (settings : ProviderSettings) (user : User)
    (token : Tokens) (entry : String) (last : Option Rat) (now : Rat) (state : σ) : Fanout σ :=
  let job := job settings user token entry
  let deadline := job.budget.map (now + ·)
  closeRun job deadline last
    (job.process.run responder (earlier deadline last) now state)

end Admission.Probe
