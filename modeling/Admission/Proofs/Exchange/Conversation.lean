import Admission.Proofs.Exchange.Pauses

/-!
# What a process does, apart from time

A conversation is what a process does when it gets some answers one after the other, and what comes
of it; its pauses are named in it, whether they end or not. Time adds nothing to this: a run with a
provider that gives answers in turn is the conversation with its instants entered, up to the first
pause that lasts forever (`run_inTurn`).
-/

set_option autoImplicit false
set_option relaxedAutoImplicit false

namespace Admission

/-- What a process does on its way. -/
inductive Action
  | asked (request : Request)
  | noticed (n : Notice)
  | paused (seconds : Binary64)
  deriving DecidableEq

/-- What shows of an action in a trace: a pause does not. -/
def Action.occurrence? : Action → Option Occurrence
  | asked request => some (.sent request)
  | noticed n => some (.noticed n)
  | paused _ => none

structure Conversation (α : Type) where
  actions : List Action
  result : α

def Conversation.after {α : Type} (action : Action) (c : Conversation α) : Conversation α :=
  { c with actions := action :: c.actions }

/-- The provider that gives an unending sequence of answers in turn, whatever it is asked. -/
def inTurn : Responder (Nat → Delivery) where
  respond _ deliveries _ := (deliveries 0, fun i ↦ deliveries (i + 1))

namespace Process

variable {α : Type}

/-- What a process does when it gets some answers in turn. -/
def converse (answers : Nat → Answer) : Process α → Conversation α
  | done result => ⟨[], result⟩
  | notice n rest => (rest.converse answers).after (.noticed n)
  | ask request next =>
    ((next (answers 0)).converse fun i ↦ answers (i + 1)).after (.asked request)
  | pause seconds rest => (rest.converse answers).after (.paused seconds)

/-- Some actions that begin at some instant and come to a result, with the answers to the requests
among them. -/
def timed (result : α) (now : Rat) (deliveries : Nat → Delivery) :
    List Action → Run α (Nat → Delivery)
  | [] => ⟨[], deliveries, .finished now result⟩
  | .noticed n :: rest => (timed result now deliveries rest).after ⟨now, .noticed n⟩
  | .asked request :: rest =>
    (timed result ((deliveries 0).arrival now) (fun i ↦ deliveries (i + 1)) rest).after
      ⟨now, .sent request⟩
  | .paused seconds :: rest =>
    match wakeAfter now seconds with
    | some wake => timed result wake deliveries rest
    | none => ⟨[], deliveries, .never now⟩

/-- A run with a provider that gives answers in turn is the conversation in time. -/
theorem run_inTurn (p : Process α) (now : Rat) (deliveries : Nat → Delivery) :
    p.run inTurn none now deliveries =
      timed (p.converse fun i ↦ (deliveries i).answer).result now deliveries
        (p.converse fun i ↦ (deliveries i).answer).actions := by
  induction p generalizing now deliveries with
  | done result => rfl
  | notice n rest ih => exact congrArg (Run.after _) (ih now deliveries)
  | ask request next ih => exact congrArg (Run.after _) (ih _ _ _)
  | pause seconds rest ih =>
    simp only [run, converse, Conversation.after, timed]
    rcases wakeAfter now seconds with _ | wake
    · rfl
    · exact ih wake deliveries

/-- If no pause among some actions lasts forever, they come to their result, and what shows of them
in the trace is what happens. -/
theorem timed_of_ends {result : α} {actions : List Action}
    (h : ∀ seconds, .paused seconds ∈ actions → seconds ≠ .infinite false) (now : Rat)
    (deliveries : Nat → Delivery) :
    ∃ time, (timed result now deliveries actions).ending = .finished time result ∧
      (timed result now deliveries actions).trace.map Event.what =
        actions.filterMap Action.occurrence? := by
  induction actions generalizing now deliveries with
  | nil => exact ⟨now, rfl, rfl⟩
  | cons action rest ih =>
    have hrest : ∀ seconds, .paused seconds ∈ rest → seconds ≠ .infinite false :=
      fun seconds hmem ↦ h seconds (List.mem_cons_of_mem action hmem)
    cases action with
    | asked request =>
      obtain ⟨time, hending, htrace⟩ := ih hrest _ _
      exact ⟨time, hending, congrArg (List.cons (Occurrence.sent request)) htrace⟩
    | noticed n =>
      obtain ⟨time, hending, htrace⟩ := ih hrest now deliveries
      exact ⟨time, hending, congrArg (List.cons (Occurrence.noticed n)) htrace⟩
    | paused seconds =>
      have hends : wakeAfter now seconds ≠ none := wakeAfter_ne_none (h seconds List.mem_cons_self)
      obtain ⟨wake, hwake⟩ := Option.ne_none_iff_exists'.mp hends
      simp only [timed, hwake]
      exact ih hrest wake deliveries

end Process

end Admission
