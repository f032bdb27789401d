import Admission.Proofs.Exchange.Lockstep
import Admission.Proofs.Pool.Records

/-!
# Pools in lockstep

Two pools whose jobs are alike do the same whatever happens next, apart from their requests, if the
provider cannot tell these apart: `inStep_run` says so of whole runs. A job of one of them may get
lost on the way, that is end with a result of some kind. This end stays among the ends of its pool,
and nothing is said of the other pool then.
-/

set_option autoImplicit false
set_option relaxedAutoImplicit false

namespace Admission

variable {σ α β : Type}

/-! ### Jobs and pools that are alike -/

/-- Jobs with processes that are alike, and everything else the same. -/
structure Job.Alike (same : Request → Request → Prop) (bad : β → Prop) (j₁ j₂ : Job α β) :
    Prop where
  process : Process.Alike same Eq (fun a ↦ bad (j₁.conclude (some a)).2) j₁.process j₂.process
  budget : j₁.budget = j₂.budget
  conclude : j₁.conclude = j₂.conclude
  quiet : ∀ answer, Quiet (j₁.conclude answer).1

/-- Jobs that wait for the same, with processes that are alike, and everything else the same. -/
structure Running.Alike (same : Request → Request → Prop) (bad : β → Prop)
    (r₁ r₂ : Running α β) : Prop where
  position : r₁.position = r₂.position
  wake : r₁.wake = r₂.wake
  turns : r₁.turns = r₂.turns
  deadline : r₁.deadline = r₂.deadline
  rest : Process.Alike same Eq (fun a ↦ bad (r₁.conclude (some a)).2) r₁.rest r₂.rest
  conclude : r₁.conclude = r₂.conclude
  quiet : ∀ answer, Quiet (r₁.conclude answer).1

/-- The same on two agendas, apart from the requests of the jobs. -/
inductive Handle.Alike (same : Request → Request → Prop) (bad : β → Prop) :
    Handle α β → Handle α β → Prop
  | arrives (position : Nat) {j₁ j₂ : Job α β} (h : Job.Alike same bad j₁ j₂) :
    Alike same bad (.arrives position j₁) (.arrives position j₂)
  | resumes {r₁ r₂ : Running α β} (h : Running.Alike same bad r₁ r₂) (inTime : Bool) :
    Alike same bad (.resumes r₁ inTime) (.resumes r₂ inTime)
  | drops (position : Nat) (holds : Bool) :
    Alike same bad (.drops position holds) (.drops position holds)
  | reports (number : Nat) : Alike same bad (.reports number) (.reports number)
  | collects : Alike same bad .collects .collects
  | cancels : Alike same bad .cancels .cancels
  | gathers : Alike same bad .gathers .gathers

section Jobs

variable {same : Request → Request → Prop} {bad : β → Prop}

theorem Running.Alike.due_eq {r₁ r₂ : Running α β} (h : Running.Alike same bad r₁ r₂) :
    r₁.due = r₂.due := by
  unfold Running.due
  rw [h.wake, h.deadline]

theorem Running.Alike.wakesInTime_eq {r₁ r₂ : Running α β} (h : Running.Alike same bad r₁ r₂) :
    r₁.wakesInTime = r₂.wakesInTime := by
  unfold Running.wakesInTime
  rw [h.wake, h.deadline]

/-- Jobs that are alike let turns pass alike. -/
theorem Running.Alike.pass {r₁ r₂ : Running α β} (h : Running.Alike same bad r₁ r₂) :
    Running.Alike same bad { r₁ with turns := r₁.turns - 1 } { r₂ with turns := r₂.turns - 1 } :=
  { h with turns := congrArg (· - 1) h.turns }

/-- Jobs that are alike begin alike. -/
theorem Job.Alike.ofJob {j₁ j₂ : Job α β} (h : Job.Alike same bad j₁ j₂) (position : Nat)
    (now : Rat) :
    Running.Alike same bad (.ofJob position j₁ now) (.ofJob position j₂ now) :=
  ⟨rfl, rfl, rfl, congrArg (·.map (now + ·)) h.budget, h.process, h.conclude, h.quiet⟩

theorem Handle.Alike.job?_eq {h₁ h₂ : Handle α β} (h : Handle.Alike same bad h₁ h₂) :
    h₁.job? = h₂.job? := by
  cases h with
  | resumes hr inTime => exact congrArg (fun position ↦ some (position, true)) hr.position
  | _ => rfl

/-- What is no job that goes on is the same on both agendas. -/
theorem Handle.alike_self {handle : Handle α β} (h : handle.isLive = false) :
    Handle.Alike same bad handle handle := by
  cases handle with
  | arrives => cases h
  | resumes => cases h
  | drops position holds => exact .drops position holds
  | reports number => exact .reports number
  | collects => exact .collects
  | cancels => exact .cancels
  | gathers => exact .gathers

/-- What is read off two lists entry by entry is the same if the entries agree on it. -/
theorem filterMap_eq_of_forall₂ {γ δ ε : Type} {related : γ → δ → Prop} {f : γ → Option ε}
    {g : δ → Option ε} {xs : List γ} {ys : List δ} (h : List.Forall₂ related xs ys)
    (hfg : ∀ x y, related x y → f x = g y) : xs.filterMap f = ys.filterMap g := by
  induction h with
  | nil => rfl
  | cons hxy _ ih => rw [List.filterMap_cons, List.filterMap_cons, hfg _ _ hxy, ih]

theorem map_eq_of_forall₂ {γ δ ε : Type} {related : γ → δ → Prop} {f : γ → ε} {g : δ → ε}
    {xs : List γ} {ys : List δ} (h : List.Forall₂ related xs ys)
    (hfg : ∀ x y, related x y → f x = g y) : xs.map f = ys.map g := by
  rw [← List.filterMap_eq_map, ← List.filterMap_eq_map]
  exact filterMap_eq_of_forall₂ h fun x y hxy ↦ congrArg some (hfg x y hxy)

end Jobs

namespace Pool

/-- Pools that have come to the same, apart from their requests. -/
structure Alike (same : Request → Request → Prop) (bad : β → Prop)
    (pool₁ pool₂ : Pool σ α β) : Prop where
  now : pool₁.now = pool₂.now
  state : pool₁.state = pool₂.state
  free : pool₁.free = pool₂.free
  queue : List.Forall₂ (fun q₁ q₂ ↦ q₁.1 = q₂.1 ∧ Job.Alike same bad q₁.2 q₂.2)
    pool₁.queue pool₂.queue
  running : List.Forall₂ (Running.Alike same bad) pool₁.running pool₂.running
  agenda : List.Forall₂ (Handle.Alike same bad) pool₁.agenda pool₂.agenda
  call : pool₁.call = pool₂.call
  cancelAt : pool₁.cancelAt = pool₂.cancelAt
  ended : pool₁.ended = pool₂.ended
  trace : pool₁.trace.Alike same pool₂.trace

/-- A job of the pool was lost. -/
def IsLost (bad : β → Prop) (pool : Pool σ α β) : Prop :=
  ∃ e ∈ pool.ended, bad e.result

/-- The pools are alike, unless a job of one of them was lost. -/
def InStep (same : Request → Request → Prop) (bad : β → Prop)
    (pool₁ pool₂ : Pool σ α β) : Prop :=
  IsLost bad pool₁ ∨ IsLost bad pool₂ ∨ Alike same bad pool₁ pool₂

section Steps

variable {same : Request → Request → Prop} {bad : β → Prop} {rules : Rules σ β}
  {pool pool₁ pool₂ : Pool σ α β}

/-- What is lost stays lost. -/
theorem IsLost.leads {later : Pool σ α β} (h : IsLost bad pool) (hahead : Ahead pool)
    (hleads : Leads rules pool later) : IsLost bad later := by
  obtain ⟨e, he, hbad⟩ := h
  obtain ⟨-, -, more, hended, -⟩ := hleads.ended_append hahead
  exact ⟨e, hended ▸ List.mem_append_left _ he, hbad⟩

/-! ### What jobs do -/

namespace Alike

theorem schedule (h : Alike same bad pool₁ pool₂) {h₁ h₂ : Handle α β}
    (hhandle : Handle.Alike same bad h₁ h₂) :
    Alike same bad (pool₁.schedule h₁) (pool₂.schedule h₂) :=
  { h with agenda := List.rel_append h.agenda (.cons hhandle .nil) }

theorem pass (h : Alike same bad pool₁ pool₂) {r₁ r₂ : Running α β}
    (hr : Running.Alike same bad r₁ r₂) (inTime : Bool) :
    Alike same bad (pool₁.pass r₁ inTime) (pool₂.pass r₂ inTime) :=
  h.schedule (.resumes hr.pass inTime)

theorem await (h : Alike same bad pool₁ pool₂) {r₁ r₂ : Running α β}
    (hr : Running.Alike same bad r₁ r₂) : Alike same bad (pool₁.await r₁) (pool₂.await r₂) := by
  have hover : Process.isOver r₁.due pool₁.now = Process.isOver r₂.due pool₂.now := by
    rw [hr.due_eq, h.now]
  unfold Pool.await
  rw [hover, hr.wakesInTime_eq]
  split
  · exact h.pass hr _
  · exact { h with running := List.rel_append h.running (.cons hr .nil) }

theorem grant (h : Alike same bad pool₁ pool₂) (position : Nat) {j₁ j₂ : Job α β}
    (hjob : Job.Alike same bad j₁ j₂) :
    Alike same bad (pool₁.grant position j₁) (pool₂.grant position j₂) := by
  have hbegun : Alike same bad
      { pool₁ with begun := pool₁.begun ++ [⟨position, pool₁.now⟩] }
      { pool₂ with begun := pool₂.begun ++ [⟨position, pool₂.now⟩] } := { h with }
  exact hbegun.schedule (.resumes (h.now ▸ hjob.ofJob position pool₁.now) true)

theorem release (h : Alike same bad pool₁ pool₂) (position : Nat) :
    Alike same bad (pool₁.release position) (pool₂.release position) := by
  have hqueue := h.queue
  rcases hqueue₁ : pool₁.queue with _ | ⟨⟨next, j₁⟩, queue₁⟩
  · rcases hqueue₂ : pool₂.queue with _ | ⟨⟨next', j₂⟩, queue₂⟩
    · rw [release_of_nil hqueue₁, release_of_nil hqueue₂]
      exact { h with free := congrArg (· + 1) h.free }
    · rw [hqueue₁, hqueue₂] at hqueue
      cases hqueue
  · rcases hqueue₂ : pool₂.queue with _ | ⟨⟨next', j₂⟩, queue₂⟩
    · rw [hqueue₁, hqueue₂] at hqueue
      cases hqueue
    · rw [hqueue₁, hqueue₂] at hqueue
      obtain _ | ⟨⟨rfl, hjob⟩, hrest⟩ := hqueue
      rw [release_of_cons hqueue₁, release_of_cons hqueue₂]
      have hreleased : Alike same bad
          { pool₁ with released := pool₁.released ++ [⟨position, pool₁.now⟩], queue := queue₁ }
          { pool₂ with released := pool₂.released ++ [⟨position, pool₂.now⟩], queue := queue₂ } :=
        { h with queue := hrest }
      exact hreleased.grant _ hjob

/-- The end of a job is entered in both pools. -/
theorem finish (h : Alike same bad pool₁ pool₂) (position : Nat)
    {conclusion : List Occurrence × β} (hquiet : Quiet conclusion.1) :
    Alike same bad (pool₁.finish position conclusion) (pool₂.finish position conclusion) := by
  let entered (pool : Pool σ α β) : Pool σ α β := { pool with
    trace := pool.trace ++ conclusion.1.map fun what ↦ ⟨pool.now, what⟩
    ended := pool.ended ++ [⟨position, pool.now, conclusion.2⟩] }
  have hentered : Alike same bad (entered pool₁) (entered pool₂) := by
    refine { h with ended := ?_, trace := ?_ }
    · simp only [entered, h.ended, h.now]
    · simp only [entered, h.now]
      exact h.trace.append (Trace.alike_of_quiet same hquiet _)
  exact (hentered.release position).schedule (h.ended ▸ .reports _)

/-- A job that was cancelled comes to its end in both pools. -/
theorem drop (h : Alike same bad pool₁ pool₂) (position : Nat) (holds : Bool) :
    Alike same bad (pool₁.drop position holds) (pool₂.drop position holds) := by
  have hdropped : Alike same bad
      { pool₁ with dropped := pool₁.dropped ++ [⟨position, pool₁.now⟩] }
      { pool₂ with dropped := pool₂.dropped ++ [⟨position, pool₂.now⟩] } := { h with }
  unfold Pool.drop
  dsimp only
  split
  · exact hdropped.release position
  · exact hdropped

/-! ### What the call does -/

theorem unfinished_eq (h : Alike same bad pool₁ pool₂) : pool₁.unfinished = pool₂.unfinished := by
  unfold unfinished Agenda.jobs
  rw [map_eq_of_forall₂ h.running fun r₁ r₂ hr ↦ congrArg (·, true) hr.position,
    map_eq_of_forall₂ h.queue fun q₁ q₂ hq ↦ congrArg (·, false) hq.1,
    filterMap_eq_of_forall₂ h.agenda fun n₁ n₂ hn ↦ hn.job?_eq]

theorem isBroken_eq (h : Alike same bad pool₁ pool₂) :
    pool₁.isBroken rules = pool₂.isBroken rules := by
  unfold isBroken
  rw [h.ended]

theorem cancel (h : Alike same bad pool₁ pool₂) (halt : Halt) :
    Alike same bad (pool₁.cancel halt) (pool₂.cancel halt) := by
  have hagenda : (pool₁.cancel halt).agenda = (pool₂.cancel halt).agenda := by
    unfold Pool.cancel
    rw [h.unfinished_eq]
  refine { h with
    queue := .nil, running := .nil, call := rfl, cancelAt := rfl, agenda := ?_ }
  rw [hagenda]
  refine List.forall₂_same.mpr fun next hnext ↦ Handle.alike_self ?_
  rcases List.mem_append.mp hnext with hnext | hnext
  · obtain ⟨j, -, rfl⟩ := List.mem_map.mp hnext
    rfl
  · rw [List.mem_singleton.mp hnext]
    rfl

theorem leave (h : Alike same bad pool₁ pool₂) (halt : Halt) :
    Alike same bad (pool₁.leave halt) (pool₂.leave halt) :=
  { h with call := congrArg (Call.left halt) h.now, cancelAt := rfl }

theorem report (h : Alike same bad pool₁ pool₂) (number : Nat) :
    Alike same bad (pool₁.report number) (pool₂.report number) := by
  have hcalled : Alike same bad { pool₁ with call := .called } { pool₂ with call := .called } :=
    { h with call := rfl }
  unfold Pool.report
  rw [h.call]
  split
  · split
    · exact hcalled.schedule .collects
    · exact h
  · exact h

theorem collect (h : Alike same bad pool₁ pool₂) :
    Alike same bad (pool₁.collect rules) (pool₂.collect rules) := by
  unfold Pool.collect
  rw [h.call, h.isBroken_eq, h.unfinished_eq]
  split
  · split
    · exact h.cancel .broken
    · split
      · exact h.leave .completed
      · have hseen : Call.listens pool₁.ended.length = Call.listens pool₂.ended.length := by
          rw [h.ended]
        exact { h with call := hseen }
  · exact h

theorem giveUp (h : Alike same bad pool₁ pool₂) : Alike same bad pool₁.giveUp pool₂.giveUp := by
  unfold Pool.giveUp
  rw [h.call]
  split
  · exact h.cancel .cancelled
  · exact h.cancel .cancelled
  · exact h

theorem gather (h : Alike same bad pool₁ pool₂) : Alike same bad pool₁.gather pool₂.gather := by
  unfold Pool.gather
  rw [h.call, h.unfinished_eq]
  split
  · split
    · exact h.leave _
    · exact h
  · exact h

theorem callOff (h : Alike same bad pool₁ pool₂) : Alike same bad pool₁.callOff pool₂.callOff := by
  have hover : Process.isOver pool₁.cancelAt pool₁.now =
      Process.isOver pool₂.cancelAt pool₂.now := by
    rw [h.cancelAt, h.now]
  have hcancelled : Alike same bad { pool₁ with cancelAt := none }
      { pool₂ with cancelAt := none } :=
    { h with cancelAt := rfl }
  unfold Pool.callOff
  rw [hover]
  split
  · exact hcancelled.schedule .cancels
  · exact h

/-! ### The clock -/

theorem foldl_await (h : Alike same bad pool₁ pool₂) {running₁ running₂ : List (Running α β)}
    (hrunning : List.Forall₂ (Running.Alike same bad) running₁ running₂) :
    Alike same bad (running₁.foldl Pool.await pool₁) (running₂.foldl Pool.await pool₂) := by
  induction hrunning generalizing pool₁ pool₂ with
  | nil => exact h
  | cons hr _ ih => exact ih (h.await hr)

theorem wakeTime?_eq (h : Alike same bad pool₁ pool₂) : pool₁.wakeTime? = pool₂.wakeTime? := by
  unfold wakeTime?
  rw [h.cancelAt, map_eq_of_forall₂ h.running fun r₁ r₂ hr ↦ hr.due_eq]

theorem advance (h : Alike same bad pool₁ pool₂) (time : Rat) :
    Alike same bad (pool₁.advance time) (pool₂.advance time) := by
  have hwaiting : Alike same bad { pool₁ with now := time, running := [] }
      { pool₂ with now := time, running := [] } :=
    { h with now := rfl, running := .nil }
  exact hwaiting.callOff.foldl_await h.running

end Alike

/-! ### What happens next -/

section Blind

variable (hblind : ∀ time state r₁ r₂, same r₁ r₂ →
  rules.responder.respond time state r₁ = rules.responder.respond time state r₂)

include hblind

namespace Alike

/-- Jobs that are alike go on alike in pools that are. -/
theorem carryOn (h : Alike same bad pool₁ pool₂) {r₁ r₂ : Running α β}
    (hr : Running.Alike same bad r₁ r₂) :
    InStep same bad (pool₁.carryOn rules r₁) (pool₂.carryOn rules r₂) := by
  have hsettle := hr.rest.settle hblind pool₁.now pool₁.state
  have hsame : r₂.rest.settle rules.responder pool₁.now pool₁.state =
      r₂.rest.settle rules.responder pool₂.now pool₂.state := by rw [h.now, h.state]
  rw [hsame] at hsettle
  rcases hsettle with ⟨a, hleft, ha⟩ | ⟨b, hleft, hb⟩ | halike
  · left
    rcases h₁ : r₁.rest.settle rules.responder pool₁.now pool₁.state with ⟨trace, state, left⟩
    rw [h₁] at hleft
    obtain rfl : left = .done a := hleft
    refine ⟨⟨r₁.position, pool₁.now, (r₁.conclude (some a)).2⟩, ?_, ha⟩
    rw [carryOn_done h₁, finish_ended]
    exact List.mem_append_right _ (List.mem_singleton_self _)
  · right
    left
    rcases h₂ : r₂.rest.settle rules.responder pool₂.now pool₂.state with ⟨trace, state, left⟩
    rw [h₂] at hleft
    obtain rfl : left = .done b := hleft
    refine ⟨⟨r₂.position, pool₂.now, (r₂.conclude (some b)).2⟩, ?_, hr.conclude ▸ hb⟩
    rw [carryOn_done h₂, finish_ended]
    exact List.mem_append_right _ (List.mem_singleton_self _)
  · right
    right
    rcases h₁ : r₁.rest.settle rules.responder pool₁.now pool₁.state with ⟨trace₁, state₁, left₁⟩
    rcases h₂ : r₂.rest.settle rules.responder pool₂.now pool₂.state with ⟨trace₂, state₂, left₂⟩
    rw [h₁, h₂] at halike
    obtain ⟨htrace, hstate, hleft⟩ := halike
    have hsettled : Alike same bad
        { pool₁ with trace := pool₁.trace ++ trace₁, state := state₁ }
        { pool₂ with trace := pool₂.trace ++ trace₂, state := state₂ } :=
      { h with state := hstate, trace := h.trace.append htrace }
    cases hleft with
    | done hrelated =>
      rw [carryOn_done h₁, carryOn_done h₂, hrelated, ← hr.conclude, ← hr.position]
      exact hsettled.finish r₁.position (hr.quiet _)
    | waiting wake turns hrest =>
      obtain ⟨bounded₁, hcarry₁⟩ := carryOn_waiting h₁
      obtain ⟨bounded₂, hcarry₂⟩ := carryOn_waiting h₂
      rw [hcarry₁, hcarry₂]
      exact hsettled.await ⟨hr.position, rfl, rfl, hr.deadline, hrest, hr.conclude, hr.quiet⟩

/-- Jobs that are alike come alike. -/
theorem arrive (h : Alike same bad pool₁ pool₂) (position : Nat) {j₁ j₂ : Job α β}
    (hjob : Job.Alike same bad j₁ j₂) :
    InStep same bad (pool₁.arrive rules position j₁) (pool₂.arrive rules position j₂) := by
  have hfree : (0 < pool₁.free && pool₁.queue.isEmpty) =
      (0 < pool₂.free && pool₂.queue.isEmpty) := by
    have hqueue : pool₁.queue.isEmpty = pool₂.queue.isEmpty := by
      rw [Bool.eq_iff_iff, List.isEmpty_iff_length_eq_zero, List.isEmpty_iff_length_eq_zero,
        h.queue.length_eq]
    rw [h.free, hqueue]
  have hbegun : Alike same bad
      { pool₁ with free := pool₁.free - 1, begun := pool₁.begun ++ [⟨position, pool₁.now⟩] }
      { pool₂ with free := pool₂.free - 1, begun := pool₂.begun ++ [⟨position, pool₂.now⟩] } :=
    { h with free := congrArg (· - 1) h.free }
  unfold Pool.arrive
  rw [hfree]
  split
  · exact hbegun.carryOn hblind (h.now ▸ hjob.ofJob position pool₁.now)
  · exact .inr (.inr { h with queue := List.rel_append h.queue (.cons ⟨rfl, hjob⟩ .nil) })

theorem resume (h : Alike same bad pool₁ pool₂) {r₁ r₂ : Running α β}
    (hr : Running.Alike same bad r₁ r₂) (inTime : Bool) :
    InStep same bad (pool₁.resume rules r₁ inTime) (pool₂.resume rules r₂ inTime) := by
  unfold Pool.resume
  rw [← hr.conclude, ← hr.position, ← hr.turns]
  split
  · split
    · exact .inr (.inr (h.pass hr true))
    · exact h.carryOn hblind hr
  · exact .inr (.inr (h.finish r₁.position (hr.quiet none)))

theorem perform (h : Alike same bad pool₁ pool₂) {h₁ h₂ : Handle α β}
    (hhandle : Handle.Alike same bad h₁ h₂) :
    InStep same bad (pool₁.perform rules h₁) (pool₂.perform rules h₂) := by
  cases hhandle with
  | arrives position hjob => exact h.arrive hblind position hjob
  | resumes hr inTime => exact h.resume hblind hr inTime
  | drops position holds => exact .inr (.inr (h.drop position holds))
  | reports number => exact .inr (.inr (h.report number))
  | collects => exact .inr (.inr h.collect)
  | cancels => exact .inr (.inr h.giveUp)
  | gathers => exact .inr (.inr h.gather)

/-- In pools that are alike the same happens next, if anything does. -/
theorem next (h : Alike same bad pool₁ pool₂) :
    (pool₁.next? rules = none ∧ pool₂.next? rules = none) ∨
      ∃ after₁ after₂, pool₁.next? rules = some after₁ ∧ pool₂.next? rules = some after₂ ∧
        InStep same bad after₁ after₂ := by
  have hagenda := h.agenda
  unfold next?
  rcases hagenda₁ : pool₁.agenda with _ | ⟨h₁, agenda₁⟩
  · rcases hagenda₂ : pool₂.agenda with _ | ⟨h₂, agenda₂⟩
    · rcases htime : pool₂.wakeTime? with _ | time
      · left
        rw [h.wakeTime?_eq, htime]
        exact ⟨rfl, rfl⟩
      · right
        rw [h.wakeTime?_eq, htime]
        exact ⟨_, _, rfl, rfl, .inr (.inr (h.advance time))⟩
    · rw [hagenda₁, hagenda₂] at hagenda
      cases hagenda
  · rcases hagenda₂ : pool₂.agenda with _ | ⟨h₂, agenda₂⟩
    · rw [hagenda₁, hagenda₂] at hagenda
      cases hagenda
    · rw [hagenda₁, hagenda₂] at hagenda
      obtain _ | ⟨hhandle, hrest⟩ := hagenda
      have htail : Alike same bad { pool₁ with agenda := agenda₁ }
          { pool₂ with agenda := agenda₂ } := { h with agenda := hrest }
      exact .inr ⟨_, _, rfl, rfl, htail.perform hblind hhandle⟩

end Alike

/-! ### Whole runs -/

/-- Pools in step play in step: on the whole way of one of them to its end, the other one is in
step. -/
theorem inStep_play {last : Pool σ α β} (h : InStep same bad pool₁ pool₂) (hahead₁ : Ahead pool₁)
    (hahead₂ : Ahead pool₂) (hleads : Leads rules pool₁ last) (hlast : last.next? rules = none) :
    InStep same bad last (play rules pool₂) := by
  have hlost₂ {pool₂ : Pool σ α β} (hahead₂ : Ahead pool₂) (hlost : IsLost bad pool₂) :
      InStep same bad last (play rules pool₂) :=
    .inr (.inl (hlost.leads hahead₂ (leads_play rules pool₂).1))
  unfold Leads at hleads
  induction hleads using Relation.ReflTransGen.head_induction_on generalizing pool₂ with
  | refl =>
    rcases h with hlost | hlost | halike
    · exact .inl hlost
    · exact hlost₂ hahead₂ hlost
    · rcases halike.next hblind with ⟨-, hnone⟩ | ⟨_, _, hnext, -⟩
      · rw [play_of_next?_eq_none hnone]
        exact .inr (.inr halike)
      · cases hlast.symm.trans hnext
  | head hnext hway ih =>
    rcases h with hlost | hlost | halike
    · exact .inl (hlost.leads hahead₁ (.head hnext hway))
    · exact hlost₂ hahead₂ hlost
    · rcases halike.next hblind with ⟨hnone, -⟩ | ⟨after₁, after₂, hnext₁, hnext₂, hafter⟩
      · cases hnone.symm.trans hnext
      · cases hnext₁.symm.trans hnext
        rw [play_of_next?_eq_some hnext₂]
        exact ih hafter (hahead₁.next hnext₁).2 (hahead₂.next hnext₂).2

/-- Jobs that are alike run in step if the provider cannot tell their requests apart. -/
theorem inStep_run {jobs₁ jobs₂ : List (Job α β)}
    (hjobs : List.Forall₂ (Job.Alike same bad) jobs₁ jobs₂) (last : Option Rat) (now : Rat)
    (state : σ) :
    InStep same bad (run rules last now state jobs₁).1 (run rules last now state jobs₂).1 := by
  have harrivals (start : Nat) : List.Forall₂ (Handle.Alike same bad)
      ((jobs₁.zipIdx start).map fun j ↦ .arrives j.2 j.1)
      ((jobs₂.zipIdx start).map fun j ↦ .arrives j.2 j.1) := by
    induction hjobs generalizing start with
    | nil => exact .nil
    | cons hjob _ ih => exact .cons (.arrives start hjob) (ih (start + 1))
  have hfilled : Alike same bad (filled rules last now state jobs₁)
      (filled rules last now state jobs₂) :=
    ⟨rfl, rfl, rfl, .nil, .nil, harrivals 0, rfl, rfl, rfl, .nil⟩
  have hopened : Alike same bad (opened rules last now state jobs₁)
      (opened rules last now state jobs₂) := by
    have hempty : jobs₁.isEmpty = jobs₂.isEmpty := by
      rw [Bool.eq_iff_iff, List.isEmpty_iff_length_eq_zero, List.isEmpty_iff_length_eq_zero,
        hjobs.length_eq]
    unfold opened
    rw [hempty]
    dsimp only
    split
    · exact hfilled.leave .completed
    · exact hfilled.callOff
  obtain ⟨hleads, hlast⟩ := leads_play rules (opened rules last now state jobs₁)
  exact inStep_play hblind (.inr (.inr hopened)) (ahead_opened ..) (ahead_opened ..) hleads hlast

end Blind

/-- Pools that are alike were left for the same reason and at the same instant. -/
theorem Alike.left_eq (h : Alike same bad pool₁ pool₂) :
    pool₁.halt = pool₂.halt ∧ pool₁.time = pool₂.time := by
  unfold halt time
  rw [h.call, h.now]
  exact ⟨rfl, rfl⟩

end Steps

end Pool

end Admission
