import Admission.Exchange.Script
import Admission.Probe.Fanout
import Admission.Proofs.Pool.Solo
import Admission.Proofs.Pool.Stopping

/-!
# The answers of a fan-out

A fan-out answers for the entries whose probes came to their ends. `course` is the fan-out that no
failure stops. In it every probe that does not wait without end comes to its end, whatever the
provider answers and however long that takes; `fanOut_answers` says how many of these ends there are
when a failure stops the fan-out. They are the first ones, none of them is later than the first
failure, and those that are left out are no earlier than it. The fan-out answers for exactly the
positions of those ends, once for each and in the order of the whitelist.

At the instant of the first failure there can be ends of both kinds. The failure is reported to the
call, which is put on the agenda by that and cancels the others in its turn. Probes that end in a
turn before are still answered for, and those that would end in a later one are not.
-/

set_option autoImplicit false
set_option relaxedAutoImplicit false

namespace Admission.Probe

variable {σ : Type}

/-! ### The jobs of entries -/

/-- What a job concludes is about its own entry. -/
theorem entry_of_conclude {settings : ProviderSettings} {user : User} {token : Tokens}
    {entry : String} {answer : Option (Except Problem Bool)} {m : Membership}
    (h : ((job settings user token entry).conclude answer).2 = .ok m) : m.entry = entry := by
  unfold job at h
  split at h
  · cases h
    rfl
  · simp only [conclude] at h
    split at h
    · cases h
      rfl
    · cases h

/-- Time budgets are not negative. -/
theorem budget_nonneg {settings : ProviderSettings} {user : User} {token : Tokens}
    {entry : String} {b : Rat} (h : (job settings user token entry).budget = some b) : 0 ≤ b := by
  unfold job at h
  split at h
  · cases h
  · exact duration?_nonneg h

theorem jobs_budget_nonneg {settings : ProviderSettings} {user : User} {token : Tokens}
    {entries : List String} : ∀ j ∈ entries.map (job settings user token),
      ∀ b, j.budget = some b → 0 ≤ b := by
  intro j hj b hb
  obtain ⟨entry, -, rfl⟩ := List.mem_map.mp hj
  exact budget_nonneg hb

theorem mapM_ok (results : List Membership) :
    (results.map Except.ok).mapM (m := Except Fault) id = .ok results := by
  induction results with
  | nil => rfl
  | cons m results ih =>
    rw [List.map_cons, List.mapM_cons, ih]
    rfl

theorem gather_ok (results : List Membership) :
    gather (results.map Except.ok) = .answers results := by
  rw [gather, mapM_ok]

/-- What ended in a pool of probes is what the job of its entry concluded. -/
theorem concluded_of_leads {rules : Pool.Rules σ (Except Fault Membership)}
    {settings : ProviderSettings} {user : User} {token : Tokens} {entries : List String}
    {last : Option Rat} {now : Rat} {state : σ}
    {pool : Pool σ (Except Problem Bool) (Except Fault Membership)}
    (h : Pool.Leads rules
      (Pool.opened rules last now state (entries.map (job settings user token))) pool)
    {e : Ended (Except Fault Membership)} (he : e ∈ pool.ended) :
    ∃ entry answer, entries[e.position]? = some entry ∧
      e.result = ((job settings user token entry).conclude answer).2 := by
  obtain ⟨_, _, _, _, _, hjob, -, hends⟩ := (h.solo jobs_budget_nonneg).ended e he
  rw [List.getElem?_map, Option.map_eq_some_iff] at hjob
  obtain ⟨entry, hentry, rfl⟩ := hjob
  rcases hends with ⟨result, -, hresult⟩ | ⟨-, hresult⟩
  · exact ⟨entry, some result, hentry, hresult⟩
  · exact ⟨entry, none, hentry, hresult⟩

/-! ### The course of a fan-out -/

section Course

variable (responder : Responder σ) (settings : Settings) (user : User) (token : Tokens) (now : Rat)
  (state : σ)

/-- The probes of all entries as they were when the fan-out stopped, and why it did. -/
def halted (last : Option Rat) :
    Pool σ (Except Problem Bool) (Except Fault Membership) × Halt :=
  Pool.run (rules responder settings.provider) last now state
    (settings.whitelist.teams.map (job settings.provider user token))

/-- How a fan-out ends whose pool was left for some reason with some results. -/
def Outcome.ofHalt (halt : Halt) (results : List (Except Fault Membership)) : Outcome :=
  match halt with
  | .cancelled => .cancelled
  | .stuck => .stuck
  | _ => gather results

theorem outcome_fanOut (last : Option Rat) :
    (fanOut responder settings user token last now state).outcome =
      Outcome.ofHalt (halted responder settings user token now state last).2
        ((halted responder settings user token now state last).1.results
          settings.whitelist.teams.length) := rfl

/-- The probes of all entries, without a failure stopping them. -/
def course : Pool σ (Except Problem Bool) (Except Fault Membership) :=
  (Pool.run (rules responder settings.provider).unbroken none now state
    (settings.whitelist.teams.map (job settings.provider user token))).1

/-- Whatever ended in a pool did so with the standing of its position, and not with a fault. -/
def EndsAs (pool : Pool σ (Except Problem Bool) (Except Fault Membership))
    (standing : Nat → Standing) : Prop :=
  ∀ e ∈ pool.ended, e.result.map Membership.standing = .ok (standing e.position)

instance (pool : Pool σ (Except Problem Bool) (Except Fault Membership))
    (standing : Nat → Standing) : Decidable (EndsAs pool standing) :=
  inferInstanceAs (Decidable (∀ e ∈ pool.ended,
    e.result.map Membership.standing = .ok (standing e.position)))

/-- The first instant at which a probe ended in a failure, if one did. -/
def firstFailure? (ends : List (Ended (Except Fault Membership))) : Option Rat :=
  ((ends.filter fun e ↦ stops e.result).map Ended.time).min?

end Course

/-- The first failure is the end of some probe that failed. -/
theorem exists_of_firstFailure? {ends : List (Ended (Except Fault Membership))} {t : Rat}
    (h : firstFailure? ends = some t) : ∃ e ∈ ends, stops e.result = true ∧ e.time = t := by
  have hmem := (List.min?_eq_some_iff.mp h).1
  simpa only [List.mem_map, List.mem_filter, and_assoc] using hmem

/-- The first failure is no later than any other. -/
theorem firstFailure?_le {ends : List (Ended (Except Fault Membership))}
    {e : Ended (Except Fault Membership)} (he : e ∈ ends) (hstops : stops e.result = true) :
    ∃ t, firstFailure? ends = some t ∧ t ≤ e.time := by
  have hmem : e.time ∈ (ends.filter fun e ↦ stops e.result).map Ended.time :=
    List.mem_map_of_mem (List.mem_filter.mpr ⟨he, hstops⟩)
  rcases hfirst : firstFailure? ends with _ | t
  · rw [List.min?_eq_none_iff.mp hfirst] at hmem
    cases hmem
  · exact ⟨t, rfl, (List.min?_eq_some_iff.mp hfirst).2 e.time hmem⟩

/-- What ends after the first failure does not change which one is the first. -/
theorem firstFailure?_append {ends more : List (Ended (Except Fault Membership))}
    (h : ∀ e ∈ more, ∃ first ∈ ends, stops first.result = true ∧ first.time ≤ e.time) :
    firstFailure? (ends ++ more) = firstFailure? ends := by
  rcases hfirst : firstFailure? ends with _ | t
  · have hnone : more = [] := by
      refine List.eq_nil_iff_forall_not_mem.mpr fun e he ↦ ?_
      obtain ⟨first, hmem, hstops, -⟩ := h e he
      obtain ⟨t, ht, -⟩ := firstFailure?_le hmem hstops
      cases hfirst.symm.trans ht
    rw [hnone, List.append_nil, hfirst]
  · obtain ⟨e, he, hstops, htime⟩ := exists_of_firstFailure? hfirst
    obtain ⟨t', ht', hle⟩ := firstFailure?_le (List.mem_append_left more he) hstops
    obtain ⟨e', he', hstops', htime'⟩ := exists_of_firstFailure? ht'
    have hge : t ≤ t' := by
      have hends (first : Ended (Except Fault Membership)) (hmem : first ∈ ends)
          (hstops : stops first.result = true) : t ≤ first.time := by
        obtain ⟨_, ht, hle⟩ := firstFailure?_le hmem hstops
        obtain rfl := Option.some.inj (hfirst.symm.trans ht)
        exact hle
      rw [← htime']
      rcases List.mem_append.mp he' with he' | he'
      · exact hends e' he' hstops'
      · obtain ⟨first, hmem, hfirst, hle⟩ := h e' he'
        exact (hends first hmem hfirst).trans hle
    rw [ht', le_antisymm (hle.trans_eq htime) hge]

/-- The positions of a list with what stands there, and the positions alone. -/
theorem filter_map_zipIdx {α : Type} (entries : List String) (keeps : Nat → Bool)
    (result : String → Nat → α) (fallback : Nat → α)
    (h : ∀ (i : Nat) (entry : String), entries[i]? = some entry → fallback i = result entry i) :
    ((List.range entries.length).filter keeps).map fallback =
      (entries.zipIdx.filter fun e ↦ keeps e.2).map fun e ↦ result e.1 e.2 := by
  have hrange : List.range entries.length = entries.zipIdx.map Prod.snd := by
    rw [List.zipIdx_map_snd, List.range_eq_range']
  rw [hrange, List.filter_map, List.map_map]
  refine List.map_congr_left fun e he ↦ ?_
  exact h e.2 e.1 (List.mem_zipIdx_iff_getElem?.mp (List.mem_of_mem_filter he))

/-- If every position has its end, nothing of a list is left out. -/
theorem filter_ended_eq_self {ended : List (Ended (Except Fault Membership))}
    {entries : List String} (h : (ended.map Ended.position).Perm (List.range entries.length)) :
    (entries.zipIdx.filter fun e ↦ ended.any fun ended ↦ ended.position == e.2) =
      entries.zipIdx := by
  refine List.filter_eq_self.mpr fun e he ↦ ?_
  obtain ⟨hlt, -⟩ := List.getElem?_eq_some_iff.mp (List.mem_zipIdx_iff_getElem?.mp he)
  obtain ⟨e', he', hposition⟩ := List.mem_map.mp (h.mem_iff.mpr (List.mem_range.mpr hlt))
  exact List.any_eq_true.mpr ⟨e', he', beq_iff_eq.mpr hposition⟩

section Ends

variable {responder : Responder σ} {settings : Settings} {user : User} {token : Tokens} {now : Rat}
  {state : σ} {standing : Nat → Standing}

/-- What a probe ended with is about the entry at its position. -/
theorem result_of_ended {last : Option Rat}
    (hends : EndsAs (halted responder settings user token now state last).1 standing)
    {e : Ended (Except Fault Membership)}
    (he : e ∈ (halted responder settings user token now state last).1.ended) :
    ∃ entry, settings.whitelist.teams[e.position]? = some entry ∧
      e.result = .ok ⟨entry, standing e.position⟩ := by
  obtain ⟨entry, answer, hentry, hanswer⟩ := concluded_of_leads (Pool.leads_run ..).1 he
  refine ⟨entry, hentry, ?_⟩
  have hstanding := hends e he
  rcases hresult : e.result with f | m
  · rw [hresult] at hstanding
    cases hstanding
  · rw [hresult] at hstanding hanswer
    have hentry' : m.entry = entry := entry_of_conclude hanswer.symm
    have hstanding' : m.standing = standing e.position := Except.ok.inj hstanding
    rw [← hentry', ← hstanding']

/-- The results of a fan-out are the standings of the entries whose probes ended. -/
theorem results_eq {last : Option Rat}
    (hends : EndsAs (halted responder settings user token now state last).1 standing) :
    (halted responder settings user token now state last).1.results
        settings.whitelist.teams.length =
      ((settings.whitelist.teams.zipIdx.filter fun e ↦
        (halted responder settings user token now state last).1.ended.any
          fun ended ↦ ended.position == e.2).map
            fun e ↦ Membership.mk e.1 (standing e.2)).map Except.ok := by
  let result (i : Nat) : Except Fault Membership :=
    .ok ⟨(settings.whitelist.teams[i]?).getD "", standing i⟩
  have hresult : ∀ e ∈ (halted responder settings user token now state last).1.ended,
      e.result = result e.position := by
    intro e he
    obtain ⟨entry, hentry, h⟩ := result_of_ended hends he
    show e.result = .ok ⟨(settings.whitelist.teams[e.position]?).getD "", standing e.position⟩
    rw [h, hentry]
    rfl
  rw [Pool.results_eq_map hresult, List.map_map]
  refine filter_map_zipIdx settings.whitelist.teams _
    (fun entry i ↦ (.ok ⟨entry, standing i⟩ : Except Fault Membership)) result
    fun i entry hentry ↦ ?_
  simp only [result, hentry, Option.getD_some]

/-- A probe that stops the fan-out has failed. -/
theorem error?_of_stops {last : Option Rat}
    (hends : EndsAs (halted responder settings user token now state last).1 standing)
    {e : Ended (Except Fault Membership)}
    (he : e ∈ (halted responder settings user token now state last).1.ended)
    (hstops : stops e.result = true) :
    ∃ entry, settings.whitelist.teams[e.position]? = some entry ∧
      (standing e.position).error?.isSome = true := by
  obtain ⟨entry, hentry, hresult⟩ := result_of_ended hends he
  rw [hresult] at hstops
  exact ⟨entry, hentry, hstops⟩

/-- No probe of a fan-out ended after the first failure. -/
theorem isPast_firstFailure?_eq_false {last : Option Rat} {e : Ended (Except Fault Membership)}
    (he : e ∈ (halted responder settings user token now state last).1.ended) :
    Process.isPast (firstFailure? (halted responder settings user token now state last).1.ended)
      e.time = false := by
  rcases hfirst : firstFailure? (halted responder settings user token now state last).1.ended with
    _ | t
  · rfl
  · obtain ⟨first, hmem, hstops, rfl⟩ := exists_of_firstFailure? hfirst
    have hle : e.time ≤ first.time := Pool.time_le_of_breaks he hmem hstops
    simpa [Process.isPast] using hle

/-- If every probe comes to an end, a fan-out that is not given up answers. -/
theorem outcome_eq (hslots : 1 ≤ settings.provider.probeConcurrency)
    (hfinite : ∀ r ∈ (course responder settings user token now state).running, r.due ≠ none)
    {answers : List Membership}
    (h : (halted responder settings user token now state none).1.results
      settings.whitelist.teams.length = answers.map Except.ok) :
    (fanOut responder settings user token none now state).outcome = .answers answers := by
  have hhalt : (halted responder settings user token now state none).2 = .completed ∨
      (halted responder settings user token now state none).2 = .broken :=
    Pool.completed_or_broken hslots hfinite
  rw [outcome_fanOut, h]
  rcases hhalt with hhalt | hhalt <;> rw [hhalt] <;> exact gather_ok answers

/-- Let every probe come to its end with some standing if no failure stops it. It does so once, and
some of these ends are there when the first failure stops the fan-out: all that are earlier than the
first failure, and none that is later. The fan-out answers for exactly the entries whose probes
ended, in the order of the whitelist. Without a failure it answers for all of them, whatever their
ends and the number of slots, and if an entry is left out then there is a failure among the
answers. -/
theorem fanOut_answers (hslots : 1 ≤ settings.provider.probeConcurrency)
    (hfinite : ∀ r ∈ (course responder settings user token now state).running, r.due ≠ none)
    (hends : EndsAs (course responder settings user token now state) standing) :
    let entries := settings.whitelist.teams
    let all := (course responder settings user token now state).ended
    let ended := (halted responder settings user token now state none).1.ended
    let first := firstFailure? ended
    let outcome := (fanOut responder settings user token none now state).outcome
    (all.map Ended.position).Perm (List.range entries.length) ∧
      (∃ more, all = ended ++ more ∧ ∀ e ∈ more, ∃ t, first = some t ∧ t ≤ e.time) ∧
      (∀ e ∈ ended, Process.isPast first e.time = false) ∧
      firstFailure? all = first ∧
      outcome = .answers ((entries.zipIdx.filter fun e ↦
        ended.any fun ended ↦ ended.position == e.2).map fun e ↦ ⟨e.1, standing e.2⟩) ∧
      ((∀ i < entries.length, (standing i).error? = none) →
        outcome = .answers (entries.zipIdx.map fun e ↦ ⟨e.1, standing e.2⟩)) ∧
      ∀ answers, outcome = .answers answers →
        answers.map Membership.entry = entries ∨ ∃ m ∈ answers, m.error?.isSome = true := by
  intro entries all ended first outcome
  have hpositions : (all.map Ended.position).Perm (List.range entries.length) := by
    have hall := Pool.positions_perm_unbroken hslots hfinite
    rwa [List.length_map] at hall
  obtain ⟨more, happend, hmore⟩ : ∃ more, all = ended ++ more ∧
      ∀ e ∈ more, ∃ first ∈ ended, stops first.result = true ∧ first.time ≤ e.time :=
    Pool.exists_ended_append ..
  have hended : EndsAs (halted responder settings user token now state none).1 standing :=
    fun e he ↦ hends e (show e ∈ all from happend ▸ List.mem_append_left more he)
  have houtcome : outcome = .answers ((entries.zipIdx.filter fun e ↦
      ended.any fun ended ↦ ended.position == e.2).map fun e ↦ ⟨e.1, standing e.2⟩) :=
    outcome_eq hslots hfinite (results_eq hended)
  have hall (hnone : more = []) : (entries.zipIdx.filter fun e ↦
      ended.any fun ended ↦ ended.position == e.2) = entries.zipIdx := by
    rw [happend, hnone, List.append_nil] at hpositions
    exact filter_ended_eq_self hpositions
  refine ⟨hpositions, ⟨more, happend, fun e he ↦ ?_⟩, fun e he ↦ isPast_firstFailure?_eq_false he,
    ?_, houtcome, fun hnone ↦ ?_, fun answers hanswers ↦ ?_⟩
  · obtain ⟨e', he', hstops, hle⟩ := hmore e he
    obtain ⟨t, ht, hle'⟩ := firstFailure?_le he' hstops
    exact ⟨t, ht, hle'.trans hle⟩
  · rw [happend]
    exact firstFailure?_append hmore
  · -- an end that is left out comes after a failure
    have hmore : more = [] := by
      refine List.eq_nil_iff_forall_not_mem.mpr fun e he ↦ ?_
      obtain ⟨e', he', hstops, -⟩ := hmore e he
      obtain ⟨entry, hentry, hfails⟩ := error?_of_stops hended he' hstops
      rw [hnone _ (List.getElem?_eq_some_iff.mp hentry).1] at hfails
      cases hfails
    rw [houtcome, hall hmore]
  · obtain rfl := Outcome.answers.inj (houtcome.symm.trans hanswers)
    rcases more with _ | ⟨e, more⟩
    · left
      rw [hall rfl, List.map_map]
      exact List.zipIdx_map_fst 0 entries
    · right
      obtain ⟨e', he', hstops, -⟩ := hmore e List.mem_cons_self
      obtain ⟨entry, hentry, hfails⟩ := error?_of_stops hended he' hstops
      refine ⟨⟨entry, standing e'.position⟩,
        List.mem_map.mpr ⟨(entry, e'.position), List.mem_filter.mpr ⟨?_, ?_⟩, rfl⟩, hfails⟩
      · exact List.mem_zipIdx_iff_getElem?.mpr hentry
      · exact List.any_eq_true.mpr ⟨e', he', beq_self_eq_true _⟩

end Ends

/-! ### A fan-out that stops -/

/-- A provider that confirms one organization after a second, refuses to tell about another after
two, and confirms a team after five. -/
def unevenScript : Script := [
  { url := "https://api.github.com/orgs/a/members/u"
    first := ⟨.response { status := 204 }, 1, 0⟩ },
  { url := "https://api.github.com/orgs/b/members/u"
    first := ⟨.response { status := 403 }, 2, 0⟩ },
  { url := "https://api.github.com/orgs/c/teams/d/memberships/u"
    first := ⟨.response { status := 404 }, 5, 0⟩ }]

def unevenSettings : Settings :=
  { provider := { probeConcurrency := 2 }
    whitelist := { teams := ["a", "b", "c/d", "//", "///", "////"] } }

def unevenStanding : Nat → Standing
  | 0 => .member
  | 1 => .failed (.unexpectedStatus 403 "https://api.github.com/orgs/b/members/u" "")
  | _ => .notMember

/-- When the second entry fails, the team is still being asked about. The slot that becomes free
goes to three entries that name no group, one after the other: two of them end before the call has
seen the failure, and the third one is given up at the same instant. -/
theorem fanOut_answers_uneven :
    let user : User := { username := "u" }
    let token : Tokens := { access := "t" }
    1 ≤ unevenSettings.provider.probeConcurrency ∧
      (∀ r ∈ (course Script.responder unevenSettings user token 0 unevenScript).running,
        r.due ≠ none) ∧
      EndsAs (course Script.responder unevenSettings user token 0 unevenScript) unevenStanding ∧
      firstFailure? (course Script.responder unevenSettings user token 0 unevenScript).ended =
        some 2 ∧
      (course Script.responder unevenSettings user token 0 unevenScript).ended.map
        (fun e ↦ (e.position, e.time)) = [(0, 1), (1, 2), (3, 2), (4, 2), (5, 2), (2, 6)] ∧
      (fanOut Script.responder unevenSettings user token none 0 unevenScript).outcome =
        .answers [⟨"a", unevenStanding 0⟩, ⟨"b", unevenStanding 1⟩, ⟨"//", unevenStanding 3⟩,
          ⟨"///", unevenStanding 4⟩] := by
  intro user token
  have hslots : 1 ≤ unevenSettings.provider.probeConcurrency := by decide
  have hfinite : ∀ r ∈ (course Script.responder unevenSettings user token 0 unevenScript).running,
      r.due ≠ none := by decide +kernel
  have hends : EndsAs (course Script.responder unevenSettings user token 0 unevenScript)
      unevenStanding := by decide +kernel
  have hended : (course Script.responder unevenSettings user token 0 unevenScript).ended.map
      (fun e ↦ (e.position, e.time)) = [(0, 1), (1, 2), (3, 2), (4, 2), (5, 2), (2, 6)] := by
    decide +kernel
  obtain ⟨-, -, -, hfirst, houtcome, -⟩ := fanOut_answers hslots hfinite hends
  refine ⟨hslots, hfinite, hends, hfirst.trans ?_, hended, houtcome.trans ?_⟩
  · decide +kernel
  · refine congrArg Outcome.answers ?_
    decide +kernel

end Admission.Probe
