import Admission.Proofs.Exchange.Counting
import Admission.Proofs.Pool.Solo

/-!
# What a pool counts

The jobs of a pool count nothing while they run, and at their ends what their results say. So the
counts of a pool are those of the results, in the order of the ends, each once (`Leads.tallied`); a
job that was dropped counts nothing.
-/

set_option autoImplicit false
set_option relaxedAutoImplicit false

namespace Admission.Pool

variable {σ α β : Type} {rules : Rules σ β} {pool after : Pool σ α β} {jobs : List (Job α β)}
  {tally : β → List Count}

/-- At the end of a job is counted what its result says. -/
def Tallies (tally : β → List Count) (conclude : Option α → List Occurrence × β) : Prop :=
  ∀ answer, Occurrence.counts (conclude answer).1 = tally (conclude answer).2

/-- What a pool has counted are the tallies of its results in their order. -/
def Tallied (tally : β → List Count) (pool : Pool σ α β) : Prop :=
  pool.trace.counts = pool.ended.flatMap fun e ↦ tally e.result

namespace Tallied

theorem congr (h : Tallied tally pool) (htrace : after.trace = pool.trace)
    (hended : after.ended = pool.ended) : Tallied tally after := by
  unfold Tallied
  rw [htrace, hended]
  exact h

/-- The end of a job is counted by its result. -/
theorem finish {position : Nat} {conclusion : List Occurrence × β} (h : Tallied tally pool)
    (htally : Occurrence.counts conclusion.1 = tally conclusion.2) :
    Tallied tally (pool.finish position conclusion) := by
  have htrace : (pool.finish position conclusion).trace =
      pool.trace ++ conclusion.1.map fun what ↦ ⟨pool.now, what⟩ := release_trace ..
  unfold Tallied at h ⊢
  rw [htrace, finish_ended, Trace.counts_append, Trace.counts_map, h, htally, List.flatMap_append,
    List.flatMap_singleton]

/-- Nothing is counted while a job goes on. -/
theorem carryOn {r : Running α β} (h : Tallied tally pool) (hr : Tallies tally r.conclude) :
    Tallied tally (pool.carryOn rules r) := by
  have hnothing := Process.counts_settle rules.responder pool.now pool.state r.rest
  have hpool (trace : Trace) (state : σ) (htrace : trace.counts = []) :
      Tallied tally { pool with trace := pool.trace ++ trace, state } := by
    unfold Tallied
    rw [Trace.counts_append, htrace, List.append_nil]
    exact h
  rcases hsettle : r.rest.settle rules.responder pool.now pool.state with
    ⟨trace, state, result | ⟨wake, turns, rest⟩⟩
  · rw [hsettle] at hnothing
    rw [carryOn_done hsettle]
    exact (hpool trace state hnothing).finish (hr _)
  · rw [hsettle] at hnothing
    obtain ⟨bounded, hcarry⟩ := carryOn_waiting hsettle
    obtain ⟨agenda, running, hawait⟩ :=
      exists_await { pool with trace := pool.trace ++ trace, state }
        { r with wake, turns, rest, waits := r.waits - 1, bounded }
    rw [hcarry, hawait]
    exact hpool trace state hnothing

theorem resume {r : Running α β} {inTime : Bool} (h : Tallied tally pool)
    (hr : Tallies tally r.conclude) : Tallied tally (pool.resume rules r inTime) := by
  unfold Pool.resume
  split
  · split
    · exact h
    · exact h.carryOn hr
  · exact h.finish (hr none)

theorem arrive {position : Nat} {job : Job α β} (h : Tallied tally pool)
    (hjob : Tallies tally job.conclude) : Tallied tally (pool.arrive rules position job) := by
  unfold Pool.arrive
  split
  · have hbegun : Tallied tally
        { pool with free := pool.free - 1, begun := pool.begun ++ [⟨position, pool.now⟩] } := h
    exact hbegun.carryOn hjob
  · exact h

/-- A job that was cancelled is not counted. -/
theorem drop (h : Tallied tally pool) (position : Nat) (holds : Bool) :
    Tallied tally (pool.drop position holds) := by
  unfold Pool.drop
  dsimp only
  split
  · exact h.congr (release_trace ..) (release_ended ..)
  · exact h

theorem next (h : Tallied tally pool) (hsolo : Solo rules jobs pool)
    (hjobs : ∀ job ∈ jobs, Tallies tally job.conclude) (hnext : pool.next? rules = some after) :
    Tallied tally after := by
  cases happens_of_next? hnext with
  | @arrives position job agenda hagenda hafter =>
    have hjob : jobs[position]? = some job := hsolo.head hagenda
    have hpool : Tallied tally { pool with agenda } := h
    exact hafter ▸ hpool.arrive (hjobs job (List.mem_of_getElem? hjob))
  | @resumes r inTime agenda hagenda hafter =>
    obtain ⟨job, -, -, -, hjob, hconclude, -⟩ : Resumes rules jobs pool r inTime :=
      hsolo.head hagenda
    have hpool : Tallied tally { pool with agenda } := h
    exact hafter ▸ hpool.resume (hconclude ▸ hjobs job (List.mem_of_getElem? hjob))
  | @drops position holds agenda hagenda hafter =>
    have hpool : Tallied tally { pool with agenda } := h
    exact hafter ▸ hpool.drop position holds
  | minds hagenda hjob hminds => exact h.congr hminds.trace hminds.ended
  | advances hagenda htime hafter =>
    obtain ⟨agenda, running, cancelAt, hadvance⟩ := exists_advance pool _
    rw [hafter, hadvance]
    exact h

end Tallied

/-- On the whole way of a run, what is counted are the tallies of its results, in the order of the
ends. -/
theorem Leads.tallied {last : Option Rat} {now : Rat} {state : σ}
    (h : Leads rules (opened rules last now state jobs) pool)
    (hbudget : ∀ job ∈ jobs, ∀ b, job.budget = some b → 0 ≤ b)
    (hjobs : ∀ job ∈ jobs, Tallies tally job.conclude) : Tallied tally pool := by
  have hboth : Solo rules jobs pool ∧ Tallied tally pool := by
    refine h.keeps (P := fun pool ↦ Solo rules jobs pool ∧ Tallied tally pool)
      (fun _ _ hnext hpool ↦ ⟨hpool.1.next hbudget hnext, hpool.2.next hpool.1 hjobs hnext⟩)
      ⟨Leads.solo .refl hbudget, ?_⟩
    have hminds := minds_opened rules last now state jobs
    have hfilled : Tallied tally (filled rules last now state jobs) := rfl
    exact hfilled.congr hminds.trace hminds.ended
  exact hboth.2

end Admission.Pool
