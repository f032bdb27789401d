import Admission.Proofs.Pool.Records
import Mathlib.Data.List.Nodup
import Mathlib.Data.List.Perm.Basic

/-!
# Where the jobs of a pool are

Each job of a pool is in one place: it has ended, or it was dropped, or it has not come to its end.
Those of the last kind that have a slot are the ones that got it and did not give it back, and no
slot is lost or given twice (`Placed`). A job that is in hand was taken out of its place, and the
slot that it holds out of the account (`PlacedBeside`); whatever happens next puts it back into one
(`PlacedBeside.next`).

Slots are given in the order of the jobs: those that got one, those that wait for one and those that
are still to come stand in a line, of which only the end is ever cut off (`line_next`).
-/

set_option autoImplicit false
set_option relaxedAutoImplicit false

namespace Admission.Pool

variable {σ α β : Type} {rules : Rules σ β} {pool after : Pool σ α β} {count position : Nat}

/-- The jobs with slots, among some jobs. -/
def holders (jobs : List (Nat × Bool)) : List Nat :=
  (jobs.filter Prod.snd).map Prod.fst

section Perm

variable {jobs before rest : List (Nat × Bool)}

theorem holders_perm (h : before.Perm (jobs ++ rest)) :
    (holders before).Perm (holders jobs ++ holders rest) := by
  unfold holders
  rw [← List.map_append, ← List.filter_append]
  exact (h.filter _).map _

/-- Positions can be taken from among the last ones to the front. -/
theorem positions_perm_front (h : before.Perm (jobs ++ rest)) (ended dropped : List Nat) :
    (ended ++ (dropped ++ before.map Prod.fst)).Perm
      (jobs.map Prod.fst ++ (ended ++ (dropped ++ rest.map Prod.fst))) := by
  have hmap := h.map Prod.fst
  rw [List.map_append] at hmap
  exact ((hmap.append_left _).append_left _).trans (perm_front ..)

/-- So can those with slots. -/
theorem holders_perm_front (h : before.Perm (jobs ++ rest)) (released : List Nat) :
    (released ++ holders before).Perm (holders jobs ++ (released ++ holders rest)) :=
  ((holders_perm h).append_left _).trans (List.perm_append_comm_assoc ..)

end Perm

/-! ### The places -/

/-- Some jobs are in hand, and some slots. All other jobs are in one place each, those with slots
got them and did not give them back, and jobs wait for slots only while none is free. -/
structure PlacedBeside (rules : Rules σ β) (count : Nat) (going holding : List Nat)
    (pool : Pool σ α β) : Prop where
  positions : (going ++ (pool.ended.map Ended.position ++ (pool.dropped.map Stamp.position ++
    pool.unfinished.map Prod.fst))).Perm (List.range count)
  holders : (holding ++ (pool.released.map Stamp.position ++ holders pool.unfinished)).Perm
    (pool.begun.map Stamp.position)
  slots : pool.free + pool.begun.length = rules.slots + pool.released.length
  idle : pool.queue ≠ [] → pool.free = 0

/-- All jobs are in one place each, those with slots got them and did not give them back, and jobs
wait for slots only while none is free. -/
abbrev Placed (rules : Rules σ β) (count : Nat) (pool : Pool σ α β) : Prop :=
  PlacedBeside rules count [] [] pool

namespace PlacedBeside

/-- A job is taken off the agenda, with its slot if it has one. -/
theorem take {handle : Handle α β} {agenda : Agenda α β} (h : Placed rules count pool)
    (hagenda : pool.agenda = handle :: agenda) :
    PlacedBeside rules count (handle.job?.toList.map Prod.fst) (Pool.holders handle.job?.toList)
      { pool with agenda } := by
  have hperm := unfinished_of_agenda hagenda
  exact ⟨(positions_perm_front hperm ..).symm.trans h.positions,
    (holders_perm_front hperm _).symm.trans h.holders, h.slots, h.idle⟩

/-- A job is put back, and everything else stays as it is. -/
theorem put (job : Nat × Bool)
    (h : PlacedBeside rules count [job.1] (Pool.holders [job]) pool)
    (hunfinished : after.unfinished.Perm (job :: pool.unfinished))
    (hended : after.ended = pool.ended) (hdropped : after.dropped = pool.dropped)
    (hbegun : after.begun = pool.begun) (hreleased : after.released = pool.released)
    (hfree : after.free = pool.free) (hidle : after.queue ≠ [] → pool.free = 0) :
    Placed rules count after := by
  have hperm : after.unfinished.Perm ([job] ++ pool.unfinished) := hunfinished
  refine ⟨?_, ?_, ?_, fun hqueue ↦ hfree.trans (hidle hqueue)⟩
  · rw [hended, hdropped]
    exact (positions_perm_front hperm ..).trans h.positions
  · rw [hbegun, hreleased]
    exact (holders_perm_front hperm _).trans h.holders
  · rw [hfree, hbegun, hreleased]
    exact h.slots

/-- A job that lets a turn pass keeps its slot. -/
theorem pass {r : Running α β} (h : PlacedBeside rules count [r.position] [r.position] pool)
    (inTime : Bool) : Placed rules count (pool.pass r inTime) :=
  put (r.position, true) h (pool.pass_unfinished r inTime) rfl rfl rfl rfl rfl h.idle

/-- A job that waits keeps its slot. -/
theorem await {r : Running α β} (h : PlacedBeside rules count [r.position] [r.position] pool) :
    Placed rules count (pool.await r) := by
  have hunfinished := pool.await_unfinished r
  obtain ⟨agenda, running, hawait⟩ := exists_await pool r
  rw [hawait] at hunfinished ⊢
  exact put (r.position, true) h hunfinished rfl rfl rfl rfl rfl h.idle

/-- A slot that is given back is free, or the job that has waited longest gets it. -/
theorem release (h : PlacedBeside rules count [] [position] pool) :
    Placed rules count (pool.release position) := by
  have hholders : (pool.released.map Stamp.position ++ [position] ++
      Pool.holders pool.unfinished).Perm
      (pool.begun.map Stamp.position) := by
    rw [List.append_assoc]
    exact (List.perm_append_comm_assoc ..).trans h.holders
  have hslots := h.slots
  rcases hqueue : pool.queue with _ | ⟨⟨next, job⟩, queue⟩
  · rw [release_of_nil hqueue]
    refine ⟨h.positions, ?_, ?_, fun hne ↦ absurd hqueue hne⟩
    · rw [List.map_append]
      exact hholders
    · show pool.free + 1 + pool.begun.length = rules.slots + (pool.released ++ [_]).length
      rw [List.length_append, List.length_singleton]
      omega
  · -- the job that has waited longest is taken out of the queue, and begins
    rw [release_of_cons hqueue]
    have hidle : pool.free = 0 := h.idle (by rw [hqueue]; exact List.cons_ne_nil _ _)
    let released : Pool σ α β :=
      { pool with released := pool.released ++ [⟨position, pool.now⟩], queue }
    have hbefore : pool.unfinished.Perm ([(next, false)] ++ released.unfinished) := by
      unfold unfinished
      rw [hqueue]
      exact List.perm_middle
    have hafter : (released.grant next job).unfinished.Perm
        ([(next, true)] ++ released.unfinished) :=
      released.grant_unfinished next job
    refine ⟨?_, ?_, ?_, fun _ ↦ hidle⟩
    · refine (positions_perm_front hafter ..).trans ?_
      exact (positions_perm_front hbefore ..).symm.trans h.positions
    · have hlefts : (Pool.holders pool.unfinished).Perm (Pool.holders released.unfinished) :=
        holders_perm hbefore
      refine (holders_perm_front hafter _).trans ?_
      show ([next] ++ ((pool.released ++ [(⟨position, pool.now⟩ : Stamp)]).map Stamp.position ++
        Pool.holders released.unfinished)).Perm
          ((pool.begun ++ [(⟨next, pool.now⟩ : Stamp)]).map Stamp.position)
      rw [List.map_append, List.map_append]
      refine (List.perm_append_comm).trans (List.Perm.append_right _ ?_)
      exact (hlefts.symm.append_left _).trans hholders
    · show pool.free + (pool.begun ++ [_]).length = rules.slots + (pool.released ++ [_]).length
      simp only [List.length_append, List.length_singleton]
      omega

/-- The call leaves all jobs in their places. -/
theorem minds {going holding : List Nat} (h : PlacedBeside rules count going holding pool)
    (hminds : Minds pool after) : PlacedBeside rules count going holding after := by
  refine ⟨?_, ?_, ?_, fun hqueue ↦ hminds.free.trans (h.idle fun hnil ↦ hqueue ?_)⟩
  · rw [hminds.ended, hminds.dropped]
    exact (((hminds.unfinished.map _).append_left _).append_left _ |>.append_left _).trans
      h.positions
  · rw [hminds.begun, hminds.released]
    exact (((hminds.unfinished.filter _).map _).append_left _ |>.append_left _).trans h.holders
  · rw [hminds.free, hminds.begun, hminds.released]
    exact h.slots
  · exact List.subset_nil.mp (hnil ▸ hminds.queue)

/-- A job that ends gives its slot back. -/
theorem finish {conclusion : List Occurrence × β}
    (h : PlacedBeside rules count [position] [position] pool) :
    Placed rules count (pool.finish position conclusion) := by
  let entered : Pool σ α β := { pool with
    trace := pool.trace ++ conclusion.1.map fun what ↦ ⟨pool.now, what⟩
    ended := pool.ended ++ [⟨position, pool.now, conclusion.2⟩] }
  have hentered : PlacedBeside rules count [] [position] entered := by
    refine ⟨?_, h.holders, h.slots, h.idle⟩
    show ((pool.ended ++ [(⟨position, pool.now, conclusion.2⟩ : Ended β)]).map Ended.position ++
      _).Perm _
    rw [List.map_append, List.append_assoc]
    exact (List.perm_append_comm_assoc ..).trans h.positions
  exact hentered.release.minds (minds_schedule _ rfl)

/-- A job that goes on ends, or waits with its slot. -/
theorem carryOn {r : Running α β} (h : PlacedBeside rules count [r.position] [r.position] pool) :
    Placed rules count (pool.carryOn rules r) := by
  obtain ⟨trace, state, -, ⟨result, hcarry⟩ | ⟨s, hposition, hcarry⟩⟩ := carryOn_cases rules pool r
  · rw [hcarry]
    exact finish ⟨h.positions, h.holders, h.slots, h.idle⟩
  · rw [hcarry]
    refine await ?_
    rw [hposition]
    exact ⟨h.positions, h.holders, h.slots, h.idle⟩

theorem resume {r : Running α β} {inTime : Bool}
    (h : PlacedBeside rules count [r.position] [r.position] pool) :
    Placed rules count (pool.resume rules r inTime) := by
  unfold Pool.resume
  split
  · split
    · exact h.pass true
    · exact h.carryOn
  · exact h.finish

/-- A job that comes gets a slot or waits for one. -/
theorem arrive {job : Job α β} (h : PlacedBeside rules count [position] [] pool) :
    Placed rules count (pool.arrive rules position job) := by
  unfold Pool.arrive
  split
  · rename_i hfree
    simp only [Bool.and_eq_true, decide_eq_true_eq] at hfree
    have hslots := h.slots
    refine carryOn ⟨h.positions, ?_, ?_, fun hqueue ↦ ?_⟩
    · rw [List.map_append]
      exact (List.perm_append_comm).trans (h.holders.append_right _)
    · show pool.free - 1 + (pool.begun ++ [_]).length = rules.slots + pool.released.length
      rw [List.length_append, List.length_singleton]
      omega
    · exact absurd (List.isEmpty_iff.mp hfree.2) hqueue
  · rename_i hfull
    refine put (position, false) h ?_ rfl rfl rfl rfl rfl fun _ ↦ ?_
    · unfold unfinished
      rw [List.map_append, List.append_assoc]
      refine ((List.Perm.append_left _ ?_)).trans List.perm_middle
      exact List.perm_middle
    · by_contra hfree
      have hqueue : pool.queue = [] := by
        by_contra hne
        exact hfree (h.idle hne)
      exact hfull (by rw [hqueue]; simpa using Nat.pos_of_ne_zero hfree)

/-- A job that comes to its end because it was cancelled gives its slot back if it has one. -/
theorem drop {holds : Bool}
    (h : PlacedBeside rules count [position] (Pool.holders [(position, holds)]) pool) :
    Placed rules count (pool.drop position holds) := by
  have hdropped {holding : List Nat} (h : PlacedBeside rules count [position] holding pool) :
      PlacedBeside rules count [] holding
        { pool with dropped := pool.dropped ++ [⟨position, pool.now⟩] } := by
    refine ⟨?_, h.holders, h.slots, h.idle⟩
    show (pool.ended.map Ended.position ++ ((pool.dropped ++
      [(⟨position, pool.now⟩ : Stamp)]).map Stamp.position ++ _)).Perm _
    rw [List.map_append, List.append_assoc]
    exact (perm_front ..).trans h.positions
  unfold Pool.drop
  cases holds with
  | false => exact hdropped h
  | true => exact (hdropped h).release

/-- Whatever happens next, all jobs stay in one place each. -/
theorem next (h : Placed rules count pool) (hnext : pool.next? rules = some after) :
    Placed rules count after := by
  cases happens_of_next? hnext with
  | arrives hagenda hafter => exact hafter ▸ (h.take hagenda).arrive
  | resumes hagenda hafter => exact hafter ▸ (h.take hagenda).resume
  | drops hagenda hafter => exact hafter ▸ (h.take hagenda).drop
  | @minds handle agenda hagenda hjob hminds =>
    have htake := h.take hagenda
    rw [hjob] at htake
    exact htake.minds hminds
  | @advances time _ _ hafter =>
    subst hafter
    have hperm := pool.advance_unfinished time
    obtain ⟨agenda, running, cancelAt, hadvance⟩ := exists_advance pool time
    rw [hadvance] at hperm ⊢
    exact ⟨((((hperm.map _).append_left _).append_left _).append_left _).trans h.positions,
      ((((hperm.filter _).map _).append_left _).append_left _).trans h.holders, h.slots, h.idle⟩

end PlacedBeside

/-- Before anything happens, all jobs are still to come. -/
theorem placed_filled (rules : Rules σ β) (last : Option Rat) (now : Rat) (state : σ)
    (jobs : List (Job α β)) : Placed rules jobs.length (filled rules last now state jobs) := by
  have hjobs (start : Nat) : Agenda.jobs ((jobs.zipIdx start).map fun j ↦
      (.arrives j.2 j.1 : Handle α β)) = (List.range' start jobs.length).map (·, false) := by
    induction jobs generalizing start with
    | nil => rfl
    | cons job jobs ih => exact congrArg ((start, false) :: ·) (ih (start + 1))
  have hunfinished : (filled rules last now state jobs).unfinished =
      (List.range jobs.length).map (·, false) := (hjobs 0).trans (by rw [List.range_eq_range'])
  refine ⟨?_, ?_, rfl, fun hqueue ↦ absurd rfl hqueue⟩
  · rw [hunfinished, List.map_map]
    exact .of_eq (List.map_id _)
  · rw [hunfinished]
    refine .of_eq ?_
    show (((List.range jobs.length).map (·, false)).filter Prod.snd).map Prod.fst = []
    rw [List.filter_map]
    simp

/-- On the whole way of a run, all jobs are in one place each. -/
theorem Leads.placed {last : Option Rat} {now : Rat} {state : σ} {jobs : List (Job α β)}
    (h : Leads rules (opened rules last now state jobs) pool) : Placed rules jobs.length pool :=
  h.keeps (fun _ _ hnext hpool ↦ hpool.next hnext)
    ((placed_filled rules last now state jobs).minds (minds_opened ..))

/-! ### What is read off by position -/

/-- What is at a position is read off by it if each position is there once. -/
theorem find?_eq_of_nodup {γ : Type} {place : γ → Nat} {xs : List γ} (h : (xs.map place).Nodup)
    {x : γ} (hx : x ∈ xs) : xs.find? (fun y ↦ place y == place x) = some x := by
  rcases hfind : xs.find? (fun y ↦ place y == place x) with _ | y
  · exact absurd (beq_self_eq_true (place x)) (List.find?_eq_none.mp hfind x hx)
  · have hplace : place y = place x := by simpa using List.find?_some hfind
    rw [List.inj_on_of_nodup_map h (List.mem_of_find?_eq_some hfind) hx hplace]

namespace PlacedBeside

/-- Slots that were given away have been given back, or are held by a job. -/
theorem begun_perm (h : Placed rules count pool) :
    (pool.released.map Stamp.position ++ Pool.holders pool.unfinished).Perm
      (pool.begun.map Stamp.position) :=
  h.holders

theorem ended_nodup (h : Placed rules count pool) : (pool.ended.map Ended.position).Nodup := by
  have hnodup := h.positions.nodup_iff.mpr List.nodup_range
  rw [List.nil_append] at hnodup
  exact (List.nodup_append.mp hnodup).1

/-- What ended is read off by position. -/
theorem find?_eq (h : Placed rules count pool) {e : Ended β} (he : e ∈ pool.ended) :
    pool.ended.find? (fun e' ↦ e'.position == e.position) = some e :=
  find?_eq_of_nodup h.ended_nodup he

theorem position_lt (h : Placed rules count pool) {e : Ended β} (he : e ∈ pool.ended) :
    e.position < count := by
  have hmem : e.position ∈ pool.ended.map Ended.position := List.mem_map_of_mem he
  exact List.mem_range.mp
    (h.positions.mem_iff.mp (List.mem_append_right _ (List.mem_append_left _ hmem)))

/-- The results of a pool are those of the ends. -/
theorem mem_results_iff (h : Placed rules count pool) (result : β) :
    result ∈ pool.results count ↔ ∃ e ∈ pool.ended, e.result = result := by
  unfold results
  rw [List.mem_filterMap]
  constructor
  · rintro ⟨position, -, hresult⟩
    obtain ⟨e, hfind, rfl⟩ := Option.map_eq_some_iff.mp hresult
    exact ⟨e, List.mem_of_find?_eq_some hfind, rfl⟩
  · rintro ⟨e, he, rfl⟩
    exact ⟨e.position, List.mem_range.mpr (h.position_lt he), by rw [h.find?_eq he]; rfl⟩

end PlacedBeside

/-- Ends whose results are given by their positions yield the results in the order of the jobs. -/
theorem results_eq_map {result : Nat → β} (h : ∀ e ∈ pool.ended, e.result = result e.position) :
    pool.results count = ((List.range count).filter fun position ↦
      pool.ended.any fun e ↦ e.position == position).map result := by
  unfold results
  rw [← List.filterMap_eq_map, List.filterMap_filter]
  refine List.filterMap_congr fun position _ ↦ ?_
  rcases hfind : pool.ended.find? (fun e ↦ e.position == position) with _ | e
  · have hnone : (pool.ended.any fun e ↦ e.position == position) = false := by
      rw [List.any_eq_false]
      exact List.find?_eq_none.mp hfind
    rw [hfind, hnone]
    rfl
  · have he : e ∈ pool.ended := List.mem_of_find?_eq_some hfind
    have hposition : e.position = position := by simpa using List.find?_some hfind
    have hany : (pool.ended.any fun e ↦ e.position == position) = true :=
      List.any_eq_true.mpr ⟨e, he, by rw [hposition, beq_self_eq_true]⟩
    rw [hfind, hany, Option.map_some, h e he, hposition]
    rfl

/-! ### The line -/

/-- The jobs that got a slot, and behind them those that have not got one yet. -/
def line (pool : Pool σ α β) : List Nat :=
  pool.begun.map Stamp.position ++ pool.waiting

theorem schedule_line (pool : Pool σ α β) {handle : Handle α β}
    (h : handle.arrival? = none) : (pool.schedule handle).line = pool.line := by
  unfold line waiting
  rw [arrivals_schedule h]
  rfl

theorem await_line (pool : Pool σ α β) (r : Running α β) : (pool.await r).line = pool.line := by
  unfold await
  split
  · exact schedule_line _ rfl
  · rfl

/-- The first job that waits for a slot gets the one that is given back. -/
theorem release_line (pool : Pool σ α β) (position : Nat) :
    (pool.release position).line = pool.line := by
  rcases hqueue : pool.queue with _ | ⟨⟨next, job⟩, queue⟩
  · rw [release_of_nil hqueue]
    rfl
  · rw [release_of_cons hqueue]
    refine (schedule_line _ rfl).trans ?_
    unfold line waiting
    rw [hqueue, List.map_append, List.append_assoc]
    rfl

theorem finish_line (pool : Pool σ α β) (position : Nat) (conclusion : List Occurrence × β) :
    (pool.finish position conclusion).line = pool.line :=
  (schedule_line _ rfl).trans (release_line ..)

theorem carryOn_line (rules : Rules σ β) (pool : Pool σ α β) (r : Running α β) :
    (pool.carryOn rules r).line = pool.line := by
  obtain ⟨trace, state, -, ⟨result, hcarry⟩ | ⟨s, -, hcarry⟩⟩ := carryOn_cases rules pool r
  · rw [hcarry]
    exact finish_line ..
  · rw [hcarry]
    exact await_line ..

theorem resume_line (rules : Rules σ β) (pool : Pool σ α β) (r : Running α β) (inTime : Bool) :
    (pool.resume rules r inTime).line = pool.line := by
  unfold resume
  split
  · split
    · exact schedule_line _ rfl
    · exact carryOn_line ..
  · exact finish_line ..

theorem drop_line (pool : Pool σ α β) (position : Nat) (holds : Bool) :
    (pool.drop position holds).line = pool.line := by
  unfold drop
  dsimp only
  split
  · exact release_line ..
  · rfl

/-- A job that comes gets a slot only if nobody waits for it. -/
theorem arrive_line (rules : Rules σ β) {job : Job α β} {agenda : Agenda α β}
    (h : pool.agenda = .arrives position job :: agenda) :
    (arrive rules { pool with agenda } position job).line = pool.line := by
  have hline : pool.line = pool.begun.map Stamp.position ++
      (pool.queue.map Prod.fst ++ position :: Agenda.arrivals agenda) := by
    unfold line waiting
    rw [h]
    rfl
  rw [hline]
  unfold arrive
  split
  · rename_i hfree
    simp only [Bool.and_eq_true, List.isEmpty_iff] at hfree
    rw [carryOn_line]
    unfold line waiting
    simp only [hfree.2, List.map_append, List.map_cons, List.map_nil, List.nil_append,
      List.append_assoc, List.cons_append]
  · unfold line waiting
    simp only [List.map_append, List.map_cons, List.map_nil, List.append_assoc, List.cons_append,
      List.nil_append]

/-- The call cuts the line off, or leaves it as it is. -/
theorem Minds.cuts_line (h : Minds pool after) : after.line <+: pool.line := by
  unfold line
  rw [h.begun]
  exact (List.prefix_append_right_inj _).mpr h.waiting

theorem foldl_await_line (pool : Pool σ α β) (running : List (Running α β)) :
    (running.foldl await pool).line = pool.line := by
  induction running generalizing pool with
  | nil => rfl
  | cons r running ih => exact (ih _).trans (await_line ..)

/-- Whatever happens next, nobody gets in line, and nobody leaves it but at its end. -/
theorem line_next (h : pool.next? rules = some after) : after.line <+: pool.line := by
  have hagenda {handle : Handle α β} {agenda : Agenda α β}
      (h : pool.agenda = handle :: agenda) (harrival : handle.arrival? = none) :
      line { pool with agenda } = pool.line := by
    have harrivals : pool.agenda.arrivals = Agenda.arrivals agenda := by
      rw [h]
      exact List.filterMap_cons_none harrival
    unfold line waiting
    rw [harrivals]
  have hsame (h : after.line = pool.line) : after.line <+: pool.line := h ▸ List.prefix_rfl
  cases happens_of_next? h with
  | arrives h hafter => exact hsame (hafter ▸ arrive_line rules h)
  | resumes h hafter => exact hsame (hafter ▸ (resume_line ..).trans (hagenda h rfl))
  | drops h hafter => exact hsame (hafter ▸ (drop_line ..).trans (hagenda h rfl))
  | minds h hjob hminds =>
    rw [← hagenda h (Handle.of_job?_eq_none hjob).2]
    exact hminds.cuts_line
  | @advances time h htime hafter =>
    let waiting : Pool σ α β := { pool with now := time, running := [] }
    have hline : (pool.advance time).line = waiting.callOff.line := foldl_await_line ..
    rw [hafter, hline]
    exact (minds_callOff waiting).cuts_line

/-- Before anything happens, all jobs stand in line. -/
theorem filled_line (rules : Rules σ β) (last : Option Rat) (now : Rat) (state : σ)
    (jobs : List (Job α β)) : (filled rules last now state jobs).line = List.range jobs.length := by
  have harrivals (start : Nat) : Agenda.arrivals ((jobs.zipIdx start).map fun j ↦
      (.arrives j.2 j.1 : Handle α β)) = List.range' start jobs.length := by
    induction jobs generalizing start with
    | nil => rfl
    | cons job jobs ih => exact congrArg (start :: ·) (ih (start + 1))
  exact (harrivals 0).trans (List.range_eq_range').symm

/-- On the whole way of a run, the jobs that got a slot are the first ones of all. -/
theorem Leads.begun_inOrder {last : Option Rat} {now : Rat} {state : σ} {jobs : List (Job α β)}
    (h : Leads rules (opened rules last now state jobs) pool) :
    pool.begun.map Stamp.position <+: List.range jobs.length := by
  have hline : pool.line <+: (filled rules last now state jobs).line :=
    h.keeps (P := fun pool ↦ pool.line <+: (filled rules last now state jobs).line)
      (fun _ _ hnext hpool ↦ (line_next hnext).trans hpool) (minds_opened ..).cuts_line
  exact filled_line rules last now state jobs ▸ (List.prefix_append ..).trans hline

end Admission.Pool
