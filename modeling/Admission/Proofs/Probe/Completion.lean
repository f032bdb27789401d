import Admission.Proofs.Probe.Answers

/-!
# What fan-outs answer about

What a fan-out answers is exactly what its probes ended with (`mem_of_answers`), and it is about the
entries whose probes ended, in the order of the whitelist (`completed_entries_of_answers`). A
fan-out ends early only when a probe fails, and the failure is then among its answers. So answers
without a failure are about every entry, whenever the call would have been given up
(`entries_of_answers`).
-/

set_option autoImplicit false
set_option relaxedAutoImplicit false

namespace Admission.Probe

variable {σ : Type} {responder : Responder σ} {settings : Settings} {user : User} {token : Tokens}
  {last : Option Rat} {now : Rat} {state : σ} {results : List Membership}

theorem eq_of_gather {ends : List (Except Fault Membership)} (h : gather ends = .answers results) :
    ends = results.map Except.ok := by
  have key : ∀ (ends : List (Except Fault Membership)) (results : List Membership),
      ends.mapM id = .ok results → ends = results.map Except.ok := by
    intro ends
    induction ends with
    | nil =>
      intro results h
      cases h
      rfl
    | cons first ends ih =>
      intro results h
      rw [List.mapM_cons] at h
      rcases first with f | m
      · cases h
      · rcases hends : ends.mapM (m := Except Fault) id with f | more
        · rw [hends] at h
          cases h
        · rw [hends] at h
          cases h
          rw [ih more hends, List.map_cons]
  unfold gather at h
  rcases hends : ends.mapM (m := Except Fault) id with f | more
  · rw [hends] at h
    cases h
  · rw [hends] at h
    cases h
    exact key ends _ hends

/-- A fan-out answers only if its pool is completed or broken, and then with the results of the
pool. -/
theorem halted_of_answers
    (h : (fanOut responder settings user token last now state).outcome = .answers results) :
    ((halted responder settings user token now state last).2 = .completed ∨
        (halted responder settings user token now state last).2 = .broken) ∧
      (halted responder settings user token now state last).1.results
        settings.whitelist.teams.length = results.map Except.ok := by
  rw [outcome_fanOut] at h
  rcases hhalt : (halted responder settings user token now state last).2 <;>
    rw [hhalt] at h <;> simp only [Outcome.ofHalt, reduceCtorEq] at h
  · exact ⟨.inl rfl, eq_of_gather h⟩
  · exact ⟨.inr rfl, eq_of_gather h⟩

/-- Each probe of a fan-out that ended did so at a position of its own. -/
theorem placed_halted (responder : Responder σ) (settings : Settings) (user : User) (token : Tokens)
    (now : Rat) (state : σ) (last : Option Rat) :
    Pool.Placed (rules responder settings.provider) settings.whitelist.teams.length
      (halted responder settings user token now state last).1 := by
  have hplaced := (Pool.leads_run (rules responder settings.provider) last now state
    (settings.whitelist.teams.map (job settings.provider user token))).1.placed
  rwa [List.length_map] at hplaced

/-- The answers of a fan-out are what its probes ended with. -/
theorem mem_of_answers
    (h : (fanOut responder settings user token last now state).outcome = .answers results)
    (m : Membership) :
    m ∈ results ↔
      ∃ e ∈ (halted responder settings user token now state last).1.ended, e.result = .ok m := by
  have hmem := (placed_halted responder settings user token now state last).mem_results_iff (.ok m)
  rw [(halted_of_answers h).2] at hmem
  rw [← hmem]
  simp

/-- A failure or a fault is what breaks a fan-out. -/
theorem completed_of_answers
    (h : (fanOut responder settings user token last now state).outcome = .answers results)
    (hnone : ∀ m ∈ results, m.error? = none) :
    (halted responder settings user token now state last).2 = .completed := by
  rcases (halted_of_answers h).1 with hhalt | hhalt
  · exact hhalt
  · obtain ⟨e, he, hstops⟩ := List.any_eq_true.mp (Pool.isBroken_of_broken hhalt)
    have hmem := ((placed_halted responder settings user token now state last).mem_results_iff
      e.result).mpr ⟨e, he, rfl⟩
    rw [(halted_of_answers h).2] at hmem
    obtain ⟨m, hm, hresult⟩ := List.mem_map.mp hmem
    rw [← hresult] at hstops
    have hfails : m.error?.isSome = true := hstops
    rw [hnone m hm] at hfails
    cases hfails

/-! ### What the answers are about -/

/-- A probe of an entry came to its end. -/
def isCompleted (ends : List (Ended (Except Fault Membership))) (entry : String) : Bool :=
  ends.any fun e ↦ e.result.map Membership.entry = .ok entry

/-- What ended at a position is about the entry there. -/
theorem entry_of_ended
    (h : (fanOut responder settings user token last now state).outcome = .answers results)
    {e : Ended (Except Fault Membership)}
    (he : e ∈ (halted responder settings user token now state last).1.ended) :
    ∃ entry, settings.whitelist.teams[e.position]? = some entry ∧
      e.result.map Membership.entry = .ok entry := by
  obtain ⟨entry, answer, hentry, hanswer⟩ := concluded_of_leads (Pool.leads_run ..).1 he
  have hmem := ((placed_halted responder settings user token now state last).mem_results_iff
    e.result).mpr ⟨e, he, rfl⟩
  rw [(halted_of_answers h).2] at hmem
  obtain ⟨m, -, hm⟩ := List.mem_map.mp hmem
  refine ⟨entry, hentry, ?_⟩
  rw [← hm, ← entry_of_conclude (hanswer.symm.trans hm.symm)]
  rfl

/-- The answers of a fan-out are about the entries at the positions that ended, in the order of the
whitelist. -/
theorem positions_of_answers
    (h : (fanOut responder settings user token last now state).outcome = .answers results) :
    results.map Membership.entry = (settings.whitelist.teams.zipIdx.filter fun e ↦
      (halted responder settings user token now state last).1.ended.any
        fun ended ↦ ended.position == e.2).map Prod.fst := by
  have hplaced := placed_halted responder settings user token now state last
  have hentry := @entry_of_ended σ responder settings user token last now state results h
  have hresults := (halted_of_answers h).2
  generalize (halted responder settings user token now state last).1 = pool at *
  let result (i : Nat) : Except Fault Membership :=
    ((pool.ended.find? fun e ↦ e.position == i).map Ended.result).getD (.error .cancelled)
  have hresult : ∀ e ∈ pool.ended, e.result = result e.position := by
    intro e he
    simp only [result, hplaced.find?_eq he, Option.map_some, Option.getD_some]
  let name (i : Nat) : Except Fault String := .ok ((settings.whitelist.teams[i]?).getD "")
  have hname : ∀ i ∈ (List.range settings.whitelist.teams.length).filter
      (fun i ↦ pool.ended.any fun e ↦ e.position == i),
      (result i).map Membership.entry = name i := by
    intro i hi
    obtain ⟨e, he, hposition⟩ := List.any_eq_true.mp (List.mem_filter.mp hi).2
    obtain rfl : e.position = i := by simpa using hposition
    obtain ⟨entry, hat, hentry⟩ := hentry he
    rw [← hresult e he, hentry]
    simp only [name, hat, Option.getD_some]
  have hnames : (results.map Except.ok).map (Except.map Membership.entry) =
      ((settings.whitelist.teams.zipIdx.filter fun e ↦ pool.ended.any fun ended ↦
        ended.position == e.2).map Prod.fst).map (Except.ok (ε := Fault)) := by
    rw [← hresults, Pool.results_eq_map hresult, List.map_map, List.map_map]
    refine (List.map_congr_left hname).trans ?_
    refine filter_map_zipIdx settings.whitelist.teams _ (fun entry _ ↦ .ok entry) name
      fun i entry hat ↦ ?_
    simp only [name, hat, Option.getD_some]
  have hok : Function.Injective (Except.ok : String → Except Fault String) :=
    fun _ _ hab ↦ Except.ok.inj hab
  refine List.map_injective_iff.mpr hok ?_
  rw [← hnames, List.map_map, List.map_map]
  rfl

/-- The answers of a fan-out over distinct entries are about those whose probes ended. -/
theorem completed_entries_of_answers (hteams : settings.whitelist.teams.Nodup)
    (h : (fanOut responder settings user token last now state).outcome = .answers results) :
    results.map Membership.entry = settings.whitelist.teams.filter
      (isCompleted (halted responder settings user token now state last).1.ended) := by
  rw [positions_of_answers h]
  have hkeeps : ∀ e ∈ settings.whitelist.teams.zipIdx,
      ((halted responder settings user token now state last).1.ended.any
        fun ended ↦ ended.position == e.2) =
      isCompleted (halted responder settings user token now state last).1.ended e.1 := by
    intro e he
    have hat : settings.whitelist.teams[e.2]? = some e.1 := List.mem_zipIdx_iff_getElem?.mp he
    rw [Bool.eq_iff_iff, isCompleted, List.any_eq_true, List.any_eq_true]
    refine exists_congr fun ended ↦ and_congr_right fun hended ↦ ?_
    obtain ⟨entry, hentry, hresult⟩ := entry_of_ended h hended
    rw [hresult, beq_iff_eq, decide_eq_true_eq, Except.ok.injEq]
    constructor
    · intro hposition
      rw [hposition, hat] at hentry
      exact (Option.some.inj hentry).symm
    · rintro rfl
      obtain ⟨hlt, -⟩ := List.getElem?_eq_some_iff.mp hat
      exact ((List.getElem?_inj hlt hteams).mp (hat.trans hentry.symm)).symm
  rw [List.filter_congr hkeeps]
  conv_rhs => rw [← List.zipIdx_map_fst 0 settings.whitelist.teams]
  rw [List.filter_map]
  rfl

/-- Answers without a failure are about all entries, in the order of the whitelist. -/
theorem entries_of_answers
    (h : (fanOut responder settings user token last now state).outcome = .answers results)
    (hnone : ∀ m ∈ results, m.error? = none) :
    results.map Membership.entry = settings.whitelist.teams := by
  have hpositions : ((halted responder settings user token now state last).1.ended.map
      Ended.position).Perm (List.range settings.whitelist.teams.length) := by
    have hall := Pool.positions_perm_of_completed (completed_of_answers h hnone)
    rwa [List.length_map] at hall
  rw [positions_of_answers h, filter_ended_eq_self hpositions]
  exact List.zipIdx_map_fst 0 settings.whitelist.teams

end Admission.Probe
