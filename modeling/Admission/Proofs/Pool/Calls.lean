import Admission.Proofs.Pool.Places

/-!
# How far the call of a pool has come

`Heeds` is the invariant of a pool about its call, with one case for each phase of it. While the
call listens or is called, every end is reported to it or was looked at, and no job was cancelled.
Once it has cancelled the jobs, all of them are on the agenda to come to their ends, and behind them
the call itself. When it is left, nothing of its jobs is left either, and the clock has not gone on
since.

So a result that breaks the pool is looked at before the clock goes on (`Heeds.isBroken_eq_false`),
and a pool in which nothing can happen any more is left, or each of its jobs that has not ended
waits for something that never comes.
-/

set_option autoImplicit false
set_option relaxedAutoImplicit false

namespace Admission.Pool

variable {σ α β : Type} {rules : Rules σ β} {pool after : Pool σ α β} {count : Nat}
  {givenUp : Prop} {handle : Handle α β} {agenda : Agenda α β}

/-! ### The phases of a call -/

/-- No job was cancelled, and the call is only if it is to be given up. -/
structure Keeps (givenUp : Prop) (pool : Pool σ α β) : Prop where
  dropped : pool.dropped = []
  drops : ∀ position holds, .drops position holds ∉ pool.agenda
  cancels : .cancels ∈ pool.agenda → givenUp
  cancelAt : pool.cancelAt ≠ none → givenUp

/-- All jobs that have not come to their ends were cancelled and are on the agenda, and behind them
the call. -/
structure Closing (pool : Pool σ α β) : Prop where
  queue : pool.queue = []
  running : pool.running = []
  cancelAt : pool.cancelAt = none
  agenda : ∃ drops, pool.agenda = drops ++ [.gathers] ∧
    ∀ next ∈ drops, ∃ position holds, next = .drops position holds

/-- What there is to a halt: all jobs have ended and none of them broke the pool, or one did, or the
call was to be given up. -/
def Justified (rules : Rules σ β) (givenUp : Prop) (pool : Pool σ α β) : Halt → Prop
  | .completed => pool.dropped = [] ∧ pool.isBroken rules = false
  | .broken => pool.isBroken rules = true
  | .cancelled => givenUp
  | .stuck => False

/-- The call has looked at all ends that are not reported to it. -/
structure Listens (rules : Rules σ β) (count : Nat) (pool : Pool σ α β) (seen : Nat) : Prop where
  seen_lt : seen < count
  seen_le : seen ≤ pool.ended.length
  whole : ∀ e ∈ pool.ended.take seen, rules.breaks e.result = false
  reports : ∀ number, seen ≤ number → number < pool.ended.length → .reports number ∈ pool.agenda

/-- The call has come as far as it says. -/
inductive Heeds (rules : Rules σ β) (count : Nat) (givenUp : Prop) (pool : Pool σ α β) : Prop
  | listens {seen : Nat} (hcall : pool.call = .listens seen) (hkeeps : Keeps givenUp pool)
    (hlistens : Listens rules count pool seen)
  | called (hcall : pool.call = .called) (hkeeps : Keeps givenUp pool)
    (hcollects : .collects ∈ pool.agenda)
  | gathers {halt : Halt} (hcall : pool.call = .gathers halt) (hclosing : Closing pool)
    (hhalt : Justified rules givenUp pool halt) (hcancels : halt ≠ .completed)
  | left {halt : Halt} (hcall : pool.call = .left halt pool.now)
    (hunfinished : pool.unfinished = []) (hcancelAt : pool.cancelAt = none)
    (hhalt : Justified rules givenUp pool halt)

/-! ### Jobs go on while nothing is cancelled -/

theorem Keeps.works (h : Keeps givenUp pool) (hworks : Works pool after) : Keeps givenUp after := by
  refine ⟨hworks.dropped.trans h.dropped, ?_, ?_, fun hat ↦ h.cancelAt (hworks.cancelAt ▸ hat)⟩
  · intro position holds hmem
    rcases hworks.enters _ hmem with hmem | ⟨r, inTime, hnext⟩ | ⟨number, hnext⟩
    · exact h.drops position holds hmem
    · cases hnext
    · cases hnext
  · intro hmem
    rcases hworks.enters _ hmem with hmem | ⟨r, inTime, hnext⟩ | ⟨number, hnext⟩
    · exact h.cancels hmem
    · cases hnext
    · cases hnext

theorem Keeps.tail (h : Keeps givenUp pool) (hagenda : pool.agenda = handle :: agenda) :
    Keeps givenUp { pool with agenda } :=
  ⟨h.dropped, fun p b hmem ↦ h.drops p b (hagenda ▸ List.mem_cons_of_mem _ hmem),
    fun hmem ↦ h.cancels (hagenda ▸ List.mem_cons_of_mem _ hmem), h.cancelAt⟩

theorem Keeps.schedule (h : Keeps givenUp pool) (handle : Handle α β)
    (hdrops : ∀ position holds, handle ≠ .drops position holds)
    (hcancels : handle = .cancels → givenUp) : Keeps givenUp (pool.schedule handle) := by
  refine ⟨h.dropped, ?_, ?_, h.cancelAt⟩
  · intro position holds hmem
    rcases mem_schedule_iff.mp hmem with heq | hmem
    · exact hdrops position holds heq.symm
    · exact h.drops position holds hmem
  · intro hmem
    rcases mem_schedule_iff.mp hmem with heq | hmem
    · exact hcancels heq.symm
    · exact h.cancels hmem

/-- An entry other than the first one stays on the agenda. -/
theorem mem_tail {next : Handle α β} (hagenda : pool.agenda = handle :: agenda)
    (hmem : next ∈ pool.agenda) (hne : next ≠ handle) : next ∈ agenda := by
  rw [hagenda] at hmem
  rcases List.mem_cons.mp hmem with rfl | hmem
  · exact absurd rfl hne
  · exact hmem

/-- While the call listens, jobs go on and have their ends reported. -/
theorem Listens.works {seen : Nat} (h : Listens rules count pool seen)
    (hagenda : ∀ number, seen ≤ number → .reports number ∈ pool.agenda → .reports number ∈ agenda)
    (hworks : Works { pool with agenda } after) : Listens rules count after seen := by
  obtain ⟨more, hended, -⟩ := hworks.ended
  have hended : after.ended = pool.ended ++ more := hended
  refine ⟨h.seen_lt, ?_, ?_, ?_⟩
  · rw [hended, List.length_append]
    exact h.seen_le.trans (Nat.le_add_right _ _)
  · rw [hended, List.take_append_of_le_length h.seen_le]
    exact h.whole
  · intro number hle hlt
    by_cases hold : number < pool.ended.length
    · exact hworks.agenda (hagenda number hle (h.reports number hle hold))
    · exact hworks.reports number (not_lt.mp hold) hlt

theorem Closing.agenda_ne_nil (h : Closing pool) : pool.agenda ≠ [] := by
  obtain ⟨drops, hshape, -⟩ := h.agenda
  rw [hshape]
  exact List.append_ne_nil_of_right_ne_nil _ (List.cons_ne_nil _ _)

/-- What can be on the agenda of a call that closes. -/
theorem Closing.head (h : Closing pool) (hagenda : pool.agenda = handle :: agenda) :
    (∃ position holds, handle = .drops position holds ∧ Closing { pool with agenda }) ∨
      handle = .gathers ∧ agenda = [] := by
  obtain ⟨drops, hshape, hdrops⟩ := h.agenda
  rw [hagenda] at hshape
  rcases drops with _ | ⟨first, drops⟩
  · obtain ⟨hfirst, hrest⟩ := List.cons.inj hshape
    exact .inr ⟨hfirst, hrest⟩
  · obtain ⟨hfirst, hrest⟩ := List.cons.inj hshape
    obtain ⟨position, holds, hdrop⟩ := hdrops first List.mem_cons_self
    exact .inl ⟨position, holds, hfirst.trans hdrop, h.queue, h.running, h.cancelAt, drops, hrest,
      fun next hnext ↦ hdrops next (List.mem_cons_of_mem _ hnext)⟩

/-- If a pool has no job left, the first entry of its agenda is none. -/
theorem job?_eq_none_of_unfinished (h : pool.unfinished = [])
    (hagenda : pool.agenda = handle :: agenda) :
    handle.job? = none ∧ unfinished { pool with agenda } = [] := by
  have hperm := unfinished_of_agenda hagenda
  rw [h] at hperm
  obtain ⟨hjob, hrest⟩ := List.append_eq_nil_iff.mp hperm.nil_eq.symm
  exact ⟨by simpa using hjob, hrest⟩

/-- A job that comes or goes on does not concern the call. -/
theorem Heeds.goes (h : Heeds rules count givenUp pool)
    (hagenda : pool.agenda = handle :: agenda) (hlive : handle.isLive = true)
    (hworks : Works { pool with agenda } after) : Heeds rules count givenUp after := by
  have hne {other : Handle α β} (hother : other.isLive = false) : other ≠ handle := by
    rintro rfl
    rw [hlive] at hother
    cases hother
  cases h with
  | listens hcall hkeeps hlistens =>
    refine .listens (hworks.call.trans hcall) ((hkeeps.tail hagenda).works hworks)
      (hlistens.works (fun _ _ hmem ↦ mem_tail hagenda hmem (hne rfl)) hworks)
  | called hcall hkeeps hcollects =>
    exact .called (hworks.call.trans hcall) ((hkeeps.tail hagenda).works hworks)
      (hworks.agenda (mem_tail hagenda hcollects (hne rfl)))
  | gathers hcall hclosing =>
    rcases hclosing.head hagenda with ⟨position, holds, rfl, -⟩ | ⟨rfl, -⟩
    · cases hlive
    · cases hlive
  | left hcall hunfinished =>
    have hjob := (job?_eq_none_of_unfinished hunfinished hagenda).1
    rw [(Handle.of_job?_eq_none hjob).1] at hlive
    cases hlive

/-! ### What the call does -/

theorem closing_cancel (pool : Pool σ α β) (halt : Halt) : Closing (pool.cancel halt) := by
  refine ⟨rfl, rfl, rfl, _, rfl, fun next hnext ↦ ?_⟩
  obtain ⟨j, -, rfl⟩ := List.mem_map.mp hnext
  exact ⟨j.1, j.2, rfl⟩

/-- A job that was cancelled comes to its end while the call waits for that. -/
theorem Heeds.drop {position : Nat} {holds : Bool} (h : Heeds rules count givenUp pool)
    (hagenda : pool.agenda = .drops position holds :: agenda) :
    Heeds rules count givenUp (drop { pool with agenda } position holds) := by
  cases h with
  | listens hcall hkeeps hlistens =>
    exact absurd (hagenda ▸ List.mem_cons_self) (hkeeps.drops position holds)
  | called hcall hkeeps hcollects =>
    exact absurd (hagenda ▸ List.mem_cons_self) (hkeeps.drops position holds)
  | @gathers halt hcall hclosing hhalt hcancels =>
    rcases hclosing.head hagenda with ⟨_, _, -, hrest⟩ | ⟨hgathers, -⟩
    · obtain ⟨free, released, dropped, hdrop⟩ := exists_drop hrest.queue position holds
      rw [hdrop]
      refine .gathers hcall ⟨hrest.queue, hrest.running, hrest.cancelAt, hrest.agenda⟩ ?_ hcancels
      cases halt with
      | completed => exact absurd rfl hcancels
      | broken => exact hhalt
      | cancelled => exact hhalt
      | stuck => exact hhalt
    · cases hgathers
  | left hcall hunfinished =>
    cases (job?_eq_none_of_unfinished hunfinished hagenda).1

section Phases

variable {seen : Nat} {halt : Halt} {time : Rat}

theorem report_of_listens (h : pool.call = .listens seen) (number : Nat) :
    pool.report number =
      if seen ≤ number then schedule { pool with call := .called } .collects else pool := by
  unfold report
  rw [h]

theorem collect_of_called (h : pool.call = .called) :
    pool.collect rules =
      if pool.isBroken rules then pool.cancel .broken
      else if pool.unfinished.isEmpty then pool.leave .completed
      else { pool with call := .listens pool.ended.length } := by
  unfold collect
  rw [h]

theorem gather_of_gathers (h : pool.call = .gathers halt) :
    pool.gather = if pool.unfinished.isEmpty then pool.leave halt else pool := by
  unfold gather
  rw [h]

theorem giveUp_of_listens (h : pool.call = .listens seen) :
    pool.giveUp = pool.cancel .cancelled := by
  unfold giveUp
  rw [h]

theorem giveUp_of_called (h : pool.call = .called) : pool.giveUp = pool.cancel .cancelled := by
  unfold giveUp
  rw [h]

/-- What is about the call means something to one that has come so far. -/
def concerns : Handle α β → Call → Bool
  | .reports _, .listens _ => true
  | .collects, .called => true
  | .cancels, .listens _ => true
  | .cancels, .called => true
  | .gathers, .gathers _ => true
  | _, _ => false

/-- What does not concern the call is passed over. -/
theorem perform_eq_self (hjob : handle.job? = none) (h : concerns handle pool.call = false) :
    pool.perform rules handle = pool := by
  cases handle with
  | arrives => cases hjob
  | resumes => cases hjob
  | drops => cases hjob
  | reports number =>
    rw [perform, report]
    split
    · rename_i hcall
      rw [hcall] at h
      cases h
    · rfl
  | collects =>
    rw [perform, collect]
    split
    · rename_i hcall
      rw [hcall] at h
      cases h
    · rfl
  | cancels =>
    rw [perform, giveUp]
    split
    · rename_i hcall
      rw [hcall] at h
      cases h
    · rename_i hcall
      rw [hcall] at h
      cases h
    · rfl
  | gathers =>
    rw [perform, gather]
    split
    · rename_i hcall
      rw [hcall] at h
      cases h
    · rfl

/-- A call that is left does nothing any more. -/
theorem perform_of_left (hcall : pool.call = .left halt time) (hjob : handle.job? = none) :
    pool.perform rules handle = pool := by
  refine perform_eq_self hjob ?_
  rw [hcall]
  cases handle <;> rfl

end Phases

/-- A call that listens is called by a report of an end that it has not looked at. -/
theorem Heeds.minds_of_listens {seen : Nat} (hcall : pool.call = .listens seen)
    (hkeeps : Keeps givenUp pool) (hlistens : Listens rules count pool seen)
    (hagenda : pool.agenda = handle :: agenda) (hjob : handle.job? = none) :
    Heeds rules count givenUp (perform rules { pool with agenda } handle) := by
  have hrest := hkeeps.tail hagenda
  have hcall' : call { pool with agenda } = .listens seen := hcall
  have hstill (hreports : ∀ number, handle = .reports number → number < seen) :
      Heeds rules count givenUp { pool with agenda } := by
    refine .listens hcall hrest (hlistens.works (fun number hle hmem ↦ ?_) (Works.refl _))
    exact mem_tail hagenda hmem fun h ↦ absurd hle (not_le.mpr (hreports number h.symm))
  cases handle with
  | arrives => cases hjob
  | resumes => cases hjob
  | drops => cases hjob
  | reports number =>
    rw [perform, report_of_listens hcall']
    split
    · refine .called rfl ?_ (mem_schedule_iff.mpr (.inl rfl))
      have hcalled : Keeps givenUp { pool with agenda, call := .called } :=
        ⟨hrest.dropped, hrest.drops, hrest.cancels, hrest.cancelAt⟩
      exact hcalled.schedule .collects (fun _ _ h ↦ by cases h) fun h ↦ by cases h
    · rename_i hlt
      refine hstill fun other h ↦ ?_
      cases h
      exact not_le.mp hlt
  | collects =>
    rw [perform_eq_self rfl (hcall' ▸ rfl)]
    exact hstill fun _ h ↦ by cases h
  | cancels =>
    rw [perform, giveUp_of_listens hcall']
    exact .gathers rfl (closing_cancel ..)
      (hkeeps.cancels (hagenda ▸ List.mem_cons_self)) (by decide)
  | gathers =>
    rw [perform_eq_self rfl (hcall' ▸ rfl)]
    exact hstill fun _ h ↦ by cases h

/-- A call that looks at the ends cancels the jobs if one of them broke the pool, and is left if no
job is left. Else it listens again. -/
theorem Heeds.collect (hcall : pool.call = .called) (hkeeps : Keeps givenUp pool)
    (hplaced : Placed rules count pool) : Heeds rules count givenUp (pool.collect rules) := by
  rw [collect_of_called hcall]
  split
  · rename_i hbroken
    exact .gathers rfl (closing_cancel ..) hbroken nofun
  · rename_i hwhole
    have hwhole : pool.isBroken rules = false := Bool.eq_false_iff.mpr hwhole
    split
    · rename_i hunfinished
      exact .left rfl (List.isEmpty_iff.mp hunfinished) rfl ⟨hkeeps.dropped, hwhole⟩
    · rename_i hunfinished
      have hlength := hplaced.positions.length_eq
      have hleft : 0 < pool.unfinished.length :=
        List.length_pos_iff.mpr fun hnil ↦ hunfinished (List.isEmpty_iff.mpr hnil)
      simp only [List.nil_append, List.length_append, List.length_map, hkeeps.dropped,
        List.length_nil, List.length_range] at hlength
      refine .listens rfl ⟨hkeeps.dropped, hkeeps.drops, hkeeps.cancels, hkeeps.cancelAt⟩
        ⟨by omega, le_refl _, ?_, fun number hle hlt ↦ absurd hlt (not_lt.mpr hle)⟩
      intro e he
      exact Bool.eq_false_iff.mpr (List.any_eq_false.mp hwhole e (List.mem_of_mem_take he))

theorem Heeds.minds_of_called (hcall : pool.call = .called) (hkeeps : Keeps givenUp pool)
    (hcollects : .collects ∈ pool.agenda) (hplaced : Placed rules count pool)
    (hagenda : pool.agenda = handle :: agenda) (hjob : handle.job? = none) :
    Heeds rules count givenUp (perform rules { pool with agenda } handle) := by
  have hrest := hkeeps.tail hagenda
  have hcall' : call { pool with agenda } = .called := hcall
  have hstill (hne : handle ≠ .collects) : Heeds rules count givenUp { pool with agenda } :=
    .called hcall hrest (mem_tail hagenda hcollects hne.symm)
  cases handle with
  | arrives => cases hjob
  | resumes => cases hjob
  | drops => cases hjob
  | reports number =>
    rw [perform_eq_self rfl (hcall' ▸ rfl)]
    exact hstill fun h ↦ by cases h
  | collects => exact Heeds.collect hcall hrest (hplaced.take hagenda)
  | cancels =>
    rw [perform, giveUp_of_called hcall']
    exact .gathers rfl (closing_cancel ..)
      (hkeeps.cancels (hagenda ▸ List.mem_cons_self)) (by decide)
  | gathers =>
    rw [perform_eq_self rfl (hcall' ▸ rfl)]
    exact hstill fun h ↦ by cases h

theorem Heeds.minds (h : Heeds rules count givenUp pool) (hplaced : Placed rules count pool)
    (hagenda : pool.agenda = handle :: agenda) (hjob : handle.job? = none) :
    Heeds rules count givenUp (perform rules { pool with agenda } handle) := by
  cases h with
  | listens hcall hkeeps hlistens => exact minds_of_listens hcall hkeeps hlistens hagenda hjob
  | called hcall hkeeps hcollects =>
    exact minds_of_called hcall hkeeps hcollects hplaced hagenda hjob
  | gathers hcall hclosing hhalt hcancels =>
    rcases hclosing.head hagenda with ⟨position, holds, rfl, -⟩ | ⟨rfl, rfl⟩
    · cases hjob
    · -- nothing is left on the agenda, and so no job is left
      have hunfinished : unfinished { pool with agenda := [] } = [] := by
        unfold unfinished
        rw [hclosing.queue, hclosing.running]
        rfl
      rw [perform, gather_of_gathers (by exact hcall), hunfinished]
      exact .left rfl hunfinished rfl hhalt
  | left hcall hunfinished hcancelAt hhalt =>
    have hrest := (job?_eq_none_of_unfinished hunfinished hagenda).2
    have hperform : perform rules { pool with agenda } handle = { pool with agenda } :=
      perform_of_left hcall hjob
    rw [hperform]
    exact .left hcall hrest hcancelAt hhalt

/-! ### What happens next -/

/-- The clock goes on only while the call listens, and when it has looked at all ends. -/
theorem Heeds.of_advance {time : Rat} (h : Heeds rules count givenUp pool)
    (hagenda : pool.agenda = []) (htime : pool.wakeTime? = some time) :
    ∃ seen, pool.call = .listens seen ∧ seen = pool.ended.length ∧ Keeps givenUp pool ∧
      Listens rules count pool seen := by
  have hnone {next : Handle α β} : next ∉ pool.agenda := by
    rw [hagenda]
    exact List.not_mem_nil
  cases h with
  | @listens seen hcall hkeeps hlistens =>
    refine ⟨seen, hcall, le_antisymm hlistens.seen_le (not_lt.mp fun hlt ↦ ?_), hkeeps, hlistens⟩
    exact hnone (hlistens.reports seen (le_refl _) hlt)
  | called hcall hkeeps hcollects =>
    exact absurd hcollects hnone
  | gathers hcall hclosing => exact absurd hagenda hclosing.agenda_ne_nil
  | left hcall hunfinished hcancelAt =>
    have hrunning : pool.running = [] := by
      have hnil := (List.append_eq_nil_iff.mp hunfinished).1
      exact List.map_eq_nil_iff.mp hnil
    rcases exists_of_wakeTime? htime with hcancel | ⟨r, hr, -⟩
    · rw [hcancelAt] at hcancel
      cases hcancel
    · rw [hrunning] at hr
      cases hr

/-- Before the clock goes on, no end has broken the pool. -/
theorem Heeds.isBroken_eq_false {time : Rat} (h : Heeds rules count givenUp pool)
    (hagenda : pool.agenda = []) (htime : pool.wakeTime? = some time) :
    pool.isBroken rules = false := by
  obtain ⟨seen, -, rfl, -, hlistens⟩ := h.of_advance hagenda htime
  have hwhole := hlistens.whole
  rw [List.take_length] at hwhole
  exact List.any_eq_false.mpr fun e he ↦ Bool.eq_false_iff.mp (hwhole e he)

theorem Keeps.callOff (h : Keeps givenUp pool) : Keeps givenUp pool.callOff := by
  unfold Pool.callOff
  split
  · rename_i hover
    have hcancelled : Keeps givenUp { pool with cancelAt := none } :=
      ⟨h.dropped, h.drops, h.cancels, fun hne ↦ absurd rfl hne⟩
    refine hcancelled.schedule .cancels (fun _ _ ↦ nofun) fun _ ↦ h.cancelAt fun hnone ↦ ?_
    rw [hnone] at hover
    cases hover
  · exact h

theorem Keeps.advance (h : Keeps givenUp pool) (time : Rat) :
    Keeps givenUp (pool.advance time) := by
  have hwaiting : Keeps givenUp { pool with now := time, running := [] } :=
    ⟨h.dropped, h.drops, h.cancels, h.cancelAt⟩
  exact hwaiting.callOff.works (works_foldl_await _ pool.running)

/-- The call goes on listening when the clock goes on. -/
theorem Heeds.advance {time : Rat} (h : Heeds rules count givenUp pool)
    (hagenda : pool.agenda = []) (htime : pool.wakeTime? = some time) :
    Heeds rules count givenUp (pool.advance time) := by
  obtain ⟨seen, hcall, rfl, hkeeps, hlistens⟩ := h.of_advance hagenda htime
  have hlater := hkeeps.advance time
  obtain ⟨agenda, running, cancelAt, hadvance⟩ := exists_advance pool time
  rw [hadvance] at hlater ⊢
  exact .listens hcall hlater ⟨hlistens.seen_lt, hlistens.seen_le, hlistens.whole,
    fun number hle hlt ↦ absurd hlt (not_lt.mpr hle)⟩

/-- Whatever happens next, the call has come as far as it says. -/
theorem Heeds.next (h : Heeds rules count givenUp pool) (hplaced : Placed rules count pool)
    (hnext : pool.next? rules = some after) : Heeds rules count givenUp after := by
  rcases next?_cases hnext with ⟨handle, agenda, hagenda, rfl⟩ | ⟨hagenda, time, htime, rfl⟩
  · cases handle with
    | arrives position job => exact h.goes hagenda rfl (works_arrive ..)
    | resumes r inTime => exact h.goes hagenda rfl (works_resume ..)
    | drops position holds => exact h.drop hagenda
    | reports number => exact h.minds hplaced hagenda rfl
    | collects => exact h.minds hplaced hagenda rfl
    | cancels => exact h.minds hplaced hagenda rfl
    | gathers => exact h.minds hplaced hagenda rfl
  · exact h.advance hagenda htime

/-! ### Whole runs -/

section Run

variable {last : Option Rat} {now : Rat} {state : σ} {jobs : List (Job α β)}

theorem heeds_opened (rules : Rules σ β) (last : Option Rat) (now : Rat) (state : σ)
    (jobs : List (Job α β)) :
    Heeds rules jobs.length (last ≠ none) (opened rules last now state jobs) := by
  have hfilled : Keeps (last ≠ none) (filled rules last now state jobs) := by
    have harrives : ∀ next ∈ (filled rules last now state jobs).agenda,
        ∃ position job, next = .arrives position job := by
      intro next hnext
      obtain ⟨j, -, rfl⟩ := List.mem_map.mp hnext
      exact ⟨j.2, j.1, rfl⟩
    refine ⟨rfl, fun position holds hmem ↦ ?_, fun hmem ↦ ?_, id⟩
    · obtain ⟨_, _, heq⟩ := harrives _ hmem
      cases heq
    · obtain ⟨_, _, heq⟩ := harrives _ hmem
      cases heq
  unfold opened
  dsimp only
  split
  · rename_i hjobs
    obtain rfl := List.isEmpty_iff.mp hjobs
    exact .left rfl rfl rfl ⟨rfl, rfl⟩
  · rename_i hjobs
    have hcount : 0 < jobs.length :=
      List.length_pos_iff.mpr fun hnil ↦ hjobs (List.isEmpty_iff.mpr hnil)
    have hcall : (filled rules last now state jobs).callOff.call = .listens 0 := by
      unfold callOff
      split <;> rfl
    have hended : (filled rules last now state jobs).callOff.ended = [] := (minds_callOff _).ended
    refine .listens hcall hfilled.callOff ⟨hcount, Nat.zero_le _, nofun, fun number _ hlt ↦ ?_⟩
    rw [hended] at hlt
    exact absurd hlt (Nat.not_lt_zero number)

/-- On the whole way of a run, the call has come as far as it says. -/
theorem Leads.heeds (h : Leads rules (opened rules last now state jobs) pool) :
    Heeds rules jobs.length (last ≠ none) pool := by
  have hboth : Placed rules jobs.length pool ∧ Heeds rules jobs.length (last ≠ none) pool :=
    h.keeps (P := fun pool ↦ Placed rules jobs.length pool ∧
        Heeds rules jobs.length (last ≠ none) pool)
      (fun _ _ hnext hpool ↦ ⟨hpool.1.next hnext, hpool.2.next hpool.1 hnext⟩)
      ⟨Leads.placed .refl, heeds_opened ..⟩
  exact hboth.2

/-- A result that breaks the pool was entered at the present instant: the clock does not go on
before the call has looked at it, and then it does not go on any more. -/
theorem Leads.breaks_now (h : Leads rules (opened rules last now state jobs) pool) :
    ∀ e ∈ pool.ended, rules.breaks e.result = true → e.time = pool.now := by
  induction h with
  | refl =>
    have hended : (opened rules last now state jobs).ended = [] := (minds_opened ..).ended
    rw [hended]
    exact nofun
  | @tail pool after hleads hnext ih =>
    have hheeds : Heeds rules jobs.length (last ≠ none) pool := Leads.heeds hleads
    have hgrows : Grows pool after := ((Leads.ahead hleads).next hnext).1
    rcases next?_cases hnext with
      ⟨handle, agenda, hagenda, hafter⟩ | ⟨hagenda, time, htime, rfl⟩
    · have hnow : after.now = pool.now := hafter ▸ perform_now rules _ handle
      obtain ⟨more, hended, hmore⟩ := hgrows.ended
      rw [hended]
      intro e he hbreaks
      rcases List.mem_append.mp he with he | he
      · exact (ih e he hbreaks).trans hnow.symm
      · exact hmore e he
    · have hwhole := hheeds.isBroken_eq_false hagenda htime
      obtain ⟨agenda, running, cancelAt, hadvance⟩ := exists_advance pool time
      rw [hadvance]
      intro e he hbreaks
      exact absurd hbreaks (List.any_eq_false.mp hwhole e he)

/-- Once the call is left, no job is left in the pool, and the clock stands still. -/
theorem Leads.of_left {halt : Halt} {time : Rat}
    (h : Leads rules (opened rules last now state jobs) pool)
    (hleft : pool.call = .left halt time) :
    time = pool.now ∧ pool.unfinished = [] ∧ Justified rules (last ≠ none) pool halt := by
  cases h.heeds with
  | listens hcall => cases hleft.symm.trans hcall
  | called hcall => cases hleft.symm.trans hcall
  | gathers hcall => cases hleft.symm.trans hcall
  | left hcall hunfinished hcancelAt hhalt =>
    cases hleft.symm.trans hcall
    exact ⟨rfl, hunfinished, hhalt⟩

/-- Once the call is left, nothing is done any more. -/
theorem Leads.stays_left {later : Pool σ α β} {halt : Halt} {time : Rat}
    (h : Leads rules (opened rules last now state jobs) pool) (hleft : pool.call = .left halt time)
    (hlater : Leads rules pool later) :
    later.call = .left halt time ∧ later.trace = pool.trace := by
  have hall : Leads rules (opened rules last now state jobs) later ∧
      later.call = .left halt time ∧ later.trace = pool.trace := by
    refine hlater.keeps (P := fun later ↦ Leads rules (opened rules last now state jobs) later ∧
      later.call = .left halt time ∧ later.trace = pool.trace) ?_ ⟨h, hleft, rfl⟩
    rintro pool after hnext ⟨hleads, hcall, htrace⟩
    refine ⟨hleads.tail hnext, ?_⟩
    rcases next?_cases hnext with ⟨handle, agenda, hagenda, rfl⟩ | ⟨hagenda, t, ht, rfl⟩
    · have hjob := (job?_eq_none_of_unfinished (hleads.of_left hcall).2.1 hagenda).1
      have hperform :
          perform rules { pool with agenda } handle = { pool with agenda } :=
        perform_of_left hcall hjob
      rw [hperform]
      exact ⟨hcall, htrace⟩
    · obtain ⟨seen, hlistens, -⟩ := hleads.heeds.of_advance hagenda ht
      cases hcall.symm.trans hlistens
  exact hall.2

/-- A run that is not stuck is left. -/
theorem run_left (h : (run rules last now state jobs).2 ≠ .stuck) :
    ∃ time, (run rules last now state jobs).1.call =
      .left (run rules last now state jobs).2 time := by
  show ∃ time, (play rules (opened rules last now state jobs)).call =
    .left (play rules (opened rules last now state jobs)).halt time
  have hhalt : (play rules (opened rules last now state jobs)).halt ≠ .stuck := h
  unfold halt at hhalt ⊢
  split at hhalt
  · rename_i reason time hcall
    rw [hcall]
    exact ⟨time, rfl⟩
  · exact absurd rfl hhalt

/-- A run does not end while its call waits for the jobs that it cancelled. -/
theorem run_ne_gathers {halt : Halt} : (run rules last now state jobs).1.call ≠ .gathers halt := by
  intro hgathers
  obtain ⟨hleads, hnone⟩ := leads_run rules last now state jobs
  cases hleads.heeds with
  | listens hcall => cases hgathers.symm.trans hcall
  | called hcall => cases hgathers.symm.trans hcall
  | gathers hcall hclosing => exact hclosing.agenda_ne_nil (of_next?_eq_none hnone).1
  | left hcall => cases hgathers.symm.trans hcall

/-- Where a run is left, nothing is left of its jobs. -/
theorem run_of_halt (h : (run rules last now state jobs).2 ≠ .stuck) :
    (run rules last now state jobs).1.time = (run rules last now state jobs).1.now ∧
      (run rules last now state jobs).1.unfinished = [] ∧
      Justified rules (last ≠ none) (run rules last now state jobs).1
        (run rules last now state jobs).2 := by
  obtain ⟨time, hcall⟩ := run_left h
  obtain ⟨htime, hrest⟩ := (leads_run rules last now state jobs).1.of_left hcall
  refine ⟨?_, hrest⟩
  unfold Pool.time
  rw [hcall]
  exact htime

/-- In a completed run every job has ended, and it did so once. -/
theorem positions_perm_of_completed (h : (run rules last now state jobs).2 = .completed) :
    ((run rules last now state jobs).1.ended.map Ended.position).Perm (List.range jobs.length) := by
  obtain ⟨-, hunfinished, hjustified⟩ := run_of_halt (h.trans_ne nofun)
  rw [h] at hjustified
  have hpositions := (leads_run rules last now state jobs).1.placed.positions
  rw [hunfinished, hjustified.1] at hpositions
  simpa using hpositions

/-- A run that is left as broken has an end that breaks it. -/
theorem isBroken_of_broken (h : (run rules last now state jobs).2 = .broken) :
    (run rules last now state jobs).1.isBroken rules = true := by
  have hjustified := (run_of_halt (h.trans_ne nofun)).2.2
  rw [h] at hjustified
  exact hjustified

/-- A run of a call that is not to be given up is not cancelled. -/
theorem ne_cancelled : (run rules none now state jobs).2 ≠ .cancelled := by
  intro h
  have hjustified := (run_of_halt (h.trans_ne nofun)).2.2
  rw [h] at hjustified
  exact hjustified rfl

/-- With a slot to give, a run is stuck only if a job waits without end. -/
theorem exists_of_stuck (hslots : 1 ≤ rules.slots)
    (h : (run rules last now state jobs).2 = .stuck) :
    ∃ r ∈ (run rules last now state jobs).1.running, r.due = none := by
  obtain ⟨hleads, hnone⟩ := leads_run rules last now state jobs
  have hplaced := hleads.placed
  have hheeds := hleads.heeds
  obtain ⟨hagenda, -, hdue⟩ := of_next?_eq_none hnone
  have hhalt : (run rules last now state jobs).1.halt = .stuck := h
  generalize (run rules last now state jobs).1 = pool at *
  have hnot {next : Handle α β} : next ∉ pool.agenda := by
    rw [hagenda]
    exact List.not_mem_nil
  by_contra hrunning
  have hrunning : pool.running = [] :=
    List.eq_nil_iff_forall_not_mem.mpr fun r hr ↦ hrunning ⟨r, hr, hdue r hr⟩
  -- all slots are free, so that nobody waits for one, and all jobs have ended
  have hwaiting : pool.unfinished = pool.queue.map fun q ↦ (q.1, false) := by
    unfold unfinished
    rw [hrunning, hagenda]
    exact List.append_nil _
  have hfree : pool.free = rules.slots := by
    have hlength := hplaced.holders.length_eq
    have hslots := hplaced.slots
    have hnone : holders pool.unfinished = [] := by
      rw [hwaiting, holders, List.filter_map]
      simp
    simp only [hnone, List.append_nil, List.nil_append, List.length_map] at hlength
    omega
  have hqueue : pool.queue = [] := by
    by_contra hne
    have := hplaced.idle hne
    omega
  have hended := hplaced.positions.length_eq
  rw [hwaiting, hqueue] at hended
  cases hheeds with
  | @listens seen hcall hkeeps hlistens =>
    have hlt := hlistens.seen_lt
    simp only [List.nil_append, List.append_nil, List.map_nil, List.length_map, List.length_range,
      hkeeps.dropped] at hended
    exact hnot (hlistens.reports seen (le_refl _) (hended ▸ hlt))
  | called hcall hkeeps hcollects =>
    exact hnot hcollects
  | gathers hcall hclosing => exact absurd hagenda hclosing.agenda_ne_nil
  | left hcall hunfinished hcancelAt hjustified =>
    unfold halt at hhalt
    rw [hcall] at hhalt
    obtain rfl := hhalt
    exact hjustified

end Run

end Admission.Pool
