import Admission.Proofs.Exchange.Deadline
import Mathlib.Data.List.Forall2

/-!
# Playing answers back

`replay` is the provider that gives some answers one after the other, whatever it is asked and when.
What a process does up to its next wait, it also does if the answers that it got are played back to
it, and answers that come behind them are left over (`settle_replay`). A run is what happens up to
the first wait, and then that wait (`run_eq_settle`). So a process that shares its provider with
others can be followed as if it ran alone, wait by wait.
-/

set_option autoImplicit false
set_option relaxedAutoImplicit false

namespace Admission

/-- The provider that gives some answers one after the other; when none is left, the connection is
broken at once. -/
def replay : Responder (List Delivery) where
  respond _ answers _ :=
    match answers with
    | [] => ({ answer := .broken "", delay := 0 }, [])
    | answer :: answers => (answer, answers)

/-- A provider gives an answer to a request, sent at its instant, in some state. -/
def Responder.Gives {σ : Type} (r : Responder σ) (request : Rat × Request) (answer : Delivery) :
    Prop :=
  ∃ state, (r.respond request.1 state request.2).1 = answer

namespace Trace

theorem requests_append (before after : Trace) :
    requests (before ++ after) = requests before ++ requests after :=
  List.filterMap_append

/-- The requests of an earlier part of a trace are those that are sent earlier. -/
theorem requests_filter (trace : Trace) (d : Rat) :
    requests (trace.filter (·.time < d)) = (requests trace).filter (·.1 < d) := by
  unfold requests
  rw [List.filterMap_filter, List.filter_filterMap]
  refine List.filterMap_congr fun x _ ↦ ?_
  obtain ⟨time, what⟩ := x
  by_cases htime : time < d <;> cases what <;> simp [htime, Option.filter]

end Trace

namespace Process

variable {α σ : Type}

/-- With the answers that it got in between, a process does the same up to its next wait when they
are played back to it. -/
theorem settle_replay (r : Responder σ) (now : Rat) (state : σ) (p : Process α) :
    ∃ answers, List.Forall₂ r.Gives (p.settle r now state).trace.requests answers ∧
      ∀ more, p.settle replay now (answers ++ more) =
        ⟨(p.settle r now state).trace, more, (p.settle r now state).left⟩ := by
  induction p generalizing state with
  | done result => exact ⟨[], .nil, fun _ ↦ rfl⟩
  | notice n rest ih =>
    obtain ⟨answers, hgives, hsettle⟩ := ih state
    exact ⟨answers, hgives, fun more ↦ congrArg (Settlement.after _) (hsettle more)⟩
  | ask request next ih =>
    have hgiven : r.Gives (now, request) (r.respond now state request).1 := ⟨state, rfl⟩
    by_cases hatOnce : (r.respond now state request).1.isAtOnce = true
    · obtain ⟨answers, hgives, hsettle⟩ := ih (r.respond now state request).1.answer
        (r.respond now state request).2
      refine ⟨(r.respond now state request).1 :: answers, ?_, fun more ↦ ?_⟩
      · simp only [settle, hatOnce, if_true]
        exact .cons hgiven hgives
      · simp only [settle, replay, List.cons_append, hatOnce, if_true]
        exact congrArg (Settlement.after _) (hsettle more)
    · refine ⟨[(r.respond now state request).1], ?_, fun more ↦ ?_⟩
      · simp only [settle, hatOnce, if_false, Bool.false_eq_true]
        exact .cons hgiven .nil
      · simp only [settle, replay, List.cons_append, List.nil_append, hatOnce, if_false,
          Bool.false_eq_true]
  | pause seconds rest => exact ⟨[], .nil, fun _ ↦ rfl⟩

/-- Waits until some instant, if that ever comes, and goes on then. -/
def wait (r : Responder σ) (last : Option Rat) (now : Rat) (state : σ) (wake : Option Rat)
    (rest : Process α) : Run α σ :=
  match wake, last with
  | some wake, _ =>
    if isOver last wake then ⟨[], state, .stopped (last.getD now)⟩ else rest.run r last wake state
  | none, some t => ⟨[], state, .stopped t⟩
  | none, none => ⟨[], state, .never now⟩

/-- A run behind what happened before it. -/
def Run.behind {α σ : Type} (before : Trace) (run : Run α σ) : Run α σ :=
  { run with trace := before ++ run.trace }

theorem Run.behind_behind {α σ : Type} (first second : Trace) (run : Run α σ) :
    (run.behind second).behind first = run.behind (first ++ second) :=
  congrArg (Run.mk · run.state run.ending) (List.append_assoc ..).symm

/-- How a process is left when nothing happens at this instant any more, as a run. -/
def Settled.run (r : Responder σ) (last : Option Rat) (now : Rat) (state : σ) :
    Settled α → Run α σ
  | .done result => ⟨[], state, .finished now result⟩
  | .waiting wake _ rest => rest.wait r last now state wake

/-- A run is what happens up to the first wait, and what comes of it then. -/
theorem run_eq_settle (r : Responder σ) (last : Option Rat) (now : Rat) (state : σ)
    (p : Process α) :
    p.run r last now state =
      ((p.settle r now state).left.run r last now (p.settle r now state).state).behind
        (p.settle r now state).trace := by
  induction p generalizing state with
  | done result => rfl
  | notice n rest ih => exact congrArg (Run.after _) (ih state)
  | ask request next ih =>
    by_cases hatOnce : (r.respond now state request).1.isAtOnce = true
    · simp only [run, settle, hatOnce, Bool.not_true, Bool.and_false, Bool.false_eq_true, if_false,
        if_true, Delivery.arrival_of_isAtOnce hatOnce]
      exact congrArg (Run.after _) (ih _ _)
    · simp only [run, settle, hatOnce, Bool.not_false, Bool.and_true, Bool.false_eq_true, if_false,
        Settled.run, wait]
      split <;> rfl
  | pause seconds rest =>
    simp only [run, settle, Settled.run, wait]
    rcases wakeAfter now seconds with _ | wake <;> rcases last with _ | t <;> rfl

end Process

end Admission
