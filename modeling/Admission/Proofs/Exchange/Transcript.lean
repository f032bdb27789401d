import Admission.Exchange.Timeline

/-!
# What a process hears

The exchanges of a run are its requests, each with the answer to it, if that came before the process
was stopped (`requests_run`). They determine what the process does up to the question whether it was
stopped: `Unfolds` says to which result a process comes through some exchanges, without speaking of
time or of a provider. Runs are of this kind (`unfolds_run`), and what one process after another
unfolds to is cut where the first of them is done (`Unfolds.bind`).
-/

set_option autoImplicit false
set_option relaxedAutoImplicit false

namespace Admission

/-- A request and the answer to it; none if the process was stopped before it came. -/
structure Exchange where
  request : Request
  answer : Option Answer

namespace Process

variable {α β σ : Type}

/-- The result of a run that was finished. -/
def Ending.result? {α : Type} : Ending α → Option α
  | finished _ result => some result
  | stopped _ => none
  | never _ => none

/-- The exchanges of a run. -/
def exchanges (r : Responder σ) (last : Option Rat) (now : Rat) (state : σ) :
    Process α → List Exchange
  | done _ => []
  | notice _ rest => rest.exchanges r last now state
  | ask request next =>
    let (delivery, state) := r.respond now state request
    let wake := delivery.arrival now
    if isOver last wake && !delivery.isAtOnce then [⟨request, none⟩]
    else ⟨request, some delivery.answer⟩ :: (next delivery.answer).exchanges r last wake state
  | pause seconds rest =>
    match wakeAfter now seconds with
    | some wake => if isOver last wake then [] else rest.exchanges r last wake state
    | none => []

/-- The requests of a run are those of its exchanges. -/
theorem requests_run (r : Responder σ) (last : Option Rat) (now : Rat) (state : σ)
    (p : Process α) :
    (p.run r last now state).trace.requests.map Prod.snd =
      (p.exchanges r last now state).map Exchange.request := by
  induction p generalizing now state with
  | done => rfl
  | notice _ _ ih => exact ih now state
  | ask request next ih =>
    simp only [run, exchanges]
    split
    · rfl
    · exact congrArg (request :: ·) (ih _ _ _)
  | pause seconds rest ih =>
    simp only [run, exchanges]
    rcases wakeAfter now seconds with _ | wake
    · rcases last <;> rfl
    · dsimp only
      split
      · rfl
      · exact ih _ _

/-- What a process asks for at once is its first request. -/
theorem head?_requests_run_ask (r : Responder σ) (last : Option Rat) (now : Rat) (state : σ)
    (request : Request) (next : Answer → Process α) :
    ((ask request next).run r last now state).trace.requests.head? = some (now, request) := by
  simp only [run]
  split <;> rfl

/-- A process comes to a result through some exchanges, or to none if it is stopped after them. -/
inductive Unfolds {α : Type} : Process α → List Exchange → Option α → Prop
  | done (result : α) : Unfolds (done result) [] (some result)
  | notice (n : Notice) {rest : Process α} {es : List Exchange} {result : Option α}
    (h : Unfolds rest es result) : Unfolds (notice n rest) es result
  | answered (request : Request) {next : Answer → Process α} (answer : Answer)
    {es : List Exchange} {result : Option α} (h : Unfolds (next answer) es result) :
    Unfolds (ask request next) (⟨request, some answer⟩ :: es) result
  | unanswered (request : Request) (next : Answer → Process α) :
    Unfolds (ask request next) [⟨request, none⟩] none
  | paused (seconds : Binary64) {rest : Process α} {es : List Exchange} {result : Option α}
    (h : Unfolds rest es result) : Unfolds (pause seconds rest) es result
  | interrupted (seconds : Binary64) (rest : Process α) : Unfolds (pause seconds rest) [] none

@[simp] theorem unfolds_done_iff {a : α} {es : List Exchange} {result : Option α} :
    (done a).Unfolds es result ↔ es = [] ∧ result = some a := by
  constructor
  · rintro ⟨⟩
    exact ⟨rfl, rfl⟩
  · rintro ⟨rfl, rfl⟩
    exact .done a

@[simp] theorem unfolds_notice_iff {n : Notice} {p : Process α} {es : List Exchange}
    {result : Option α} : (notice n p).Unfolds es result ↔ p.Unfolds es result := by
  constructor
  · rintro ⟨⟩
    assumption
  · exact .notice n

/-- A process comes to the result of its run through the exchanges of the run. -/
theorem unfolds_run (r : Responder σ) (last : Option Rat) (now : Rat) (state : σ)
    (p : Process α) :
    p.Unfolds (p.exchanges r last now state) (p.run r last now state).ending.result? := by
  induction p generalizing now state with
  | done result => exact .done result
  | notice n _ ih => exact .notice n (ih now state)
  | ask request next ih =>
    simp only [run, exchanges]
    split
    · exact .unanswered request next
    · exact .answered request _ (ih _ _ _)
  | pause seconds rest ih =>
    simp only [run, exchanges]
    rcases wakeAfter now seconds with _ | wake
    · rcases last <;> exact .interrupted seconds rest
    · dsimp only
      split
      · exact .interrupted seconds rest
      · exact .paused seconds (ih _ _)

/-- A process that goes on with another one is stopped before the first is done, or the other one
comes to the result through the exchanges that are left. -/
theorem Unfolds.bind {p : Process α} {f : α → Process β} {es : List Exchange}
    {result : Option β} (h : (p.bind f).Unfolds es result) :
    (∃ a first rest, es = first ++ rest ∧ p.Unfolds first (some a) ∧ (f a).Unfolds rest result) ∨
      (result = none ∧ p.Unfolds es none) := by
  induction p generalizing es with
  | done a => exact .inl ⟨a, [], es, rfl, .done a, h⟩
  | notice n rest ih =>
    cases h with
    | notice _ h =>
      rcases ih h with ⟨a, first, rest, rfl, hp, hf⟩ | ⟨rfl, hp⟩
      · exact .inl ⟨a, first, rest, rfl, .notice n hp, hf⟩
      · exact .inr ⟨rfl, .notice n hp⟩
  | ask request next ih =>
    cases h with
    | answered _ answer h =>
      rcases ih answer h with ⟨a, first, rest, rfl, hp, hf⟩ | ⟨rfl, hp⟩
      · exact .inl ⟨a, _ :: first, rest, rfl, .answered request answer hp, hf⟩
      · exact .inr ⟨rfl, .answered request answer hp⟩
    | unanswered => exact .inr ⟨rfl, .unanswered request next⟩
  | pause seconds rest ih =>
    cases h with
    | paused _ h =>
      rcases ih h with ⟨a, first, rest, rfl, hp, hf⟩ | ⟨rfl, hp⟩
      · exact .inl ⟨a, first, rest, rfl, .paused seconds hp, hf⟩
      · exact .inr ⟨rfl, .paused seconds hp⟩
    | interrupted => exact .inr ⟨rfl, .interrupted seconds rest⟩

/-- The same for processes that may end in a problem, which is passed on. -/
theorem Unfolds.andThen {p : Process (Except Problem α)} {f : α → Process (Except Problem β)}
    {es : List Exchange} {result : Option (Except Problem β)}
    (h : (p.andThen f).Unfolds es result) :
    (∃ a first rest, es = first ++ rest ∧ p.Unfolds first (some (.ok a)) ∧
        (f a).Unfolds rest result) ∨
      (∃ problem, result = some (.error problem) ∧ p.Unfolds es (some (.error problem))) ∨
        (result = none ∧ p.Unfolds es none) := by
  rcases Unfolds.bind h with ⟨a, first, rest, rfl, hp, hf⟩ | hnone
  · rcases a with problem | a
    · cases hf
      exact .inr (.inl ⟨problem, rfl, by rwa [List.append_nil]⟩)
    · exact .inl ⟨a, first, rest, rfl, hp, hf⟩
  · exact .inr (.inr hnone)

end Process

end Admission
