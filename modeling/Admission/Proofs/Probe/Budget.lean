import Admission.Proofs.Pool.Solo
import Admission.Proofs.Probe.Verdict

/-!
# The time budget of an entry

All that is asked about an entry, its retries, its pauses and a redirect included, has one budget.
`KeepsBudget` compares a probe with the same question asked without a budget: if that one ends in
time, the probe ends with it, and else it ends when the budget is used up, after the requests that
are sent before that instant. `probeEntry_budget` says so of a probe on its own, and of each probe
of a fan-out, whose budget begins when it gets its slot.

What the other probes of a fan-out do to a provider is not known to a probe. So the question that it
is compared with is answered by `replay`, with the answers that the provider gave to this very probe
and anything behind them.
-/

set_option autoImplicit false
set_option relaxedAutoImplicit false

namespace Admission.Probe

variable {σ : Type}

/-- What is known about an entry when its question came to an answer or a failure. -/
def resolved (entry : String) : Except Failure Bool → Membership
  | .ok isMember => ⟨entry, .ofAnswer isMember⟩
  | .error f => ⟨entry, .failed f⟩

/-- A probe that began at some instant, against the run of its question from that instant on without
a budget. If the question is settled before the budget is used up, the probe ends then with the
answer and has sent the same. If it would take longer, the probe ends with the budget, and what it
has sent is what is sent before that instant. -/
structure KeepsBudget (settings : ProviderSettings) (entry : String) (since : Rat)
    (alone : Process.Run (Except Problem Bool) σ) (time : Rat) (outcome : Outcome)
    (requests : List (Rat × Request)) : Prop where
  inTime : ∀ t answer, alone.ending = .finished t (answer.mapError .failure) →
    (∀ budget, settings.probeTimeout.toRat? = some budget → t - since < budget) →
      time = t ∧ outcome = .answers [resolved entry answer] ∧ requests = alone.trace.requests
  outOfTime : ∀ budget, settings.probeTimeout.toRat? = some budget →
    (∀ t answer, alone.ending = .finished t answer → budget < t - since) →
      time = since + budget ∧
        outcome = .answers [⟨entry, .failed (.timedOut entry settings.probeTimeout)⟩] ∧
        requests = alone.trace.requests.filter (·.1 < since + budget)

/-- A positive number of seconds lasts that long. -/
theorem budget_eq {settings : ProviderSettings}
    (h : Binary64.zero.lt settings.probeTimeout = true) :
    budget settings = settings.probeTimeout.toRat? ∧
      ∀ seconds, settings.probeTimeout.toRat? = some seconds → 0 < seconds := by
  unfold budget
  generalize settings.probeTimeout = timeout at *
  cases timeout with
  | finite q =>
    have hq : 0 < q := of_decide_eq_true h
    constructor
    · simp only [duration?, Binary64.toRat?, Option.getD_some, lasting, not_lt.mpr hq.le, if_false]
    · rintro _ ⟨⟩
      exact hq
  | negativeZero => simp [Binary64.lt, Binary64.zero, Binary64.toRat?] at h
  | infinite negative =>
    cases negative with
    | false => exact ⟨rfl, nofun⟩
    | true => cases h
  | nan => cases h

theorem conclude_resolved (settings : ProviderSettings) (username entry : String) (group : Group)
    (answer : Except Failure Bool) :
    (conclude settings username entry group (some (answer.mapError .failure))).2 =
      .ok (resolved entry answer) := by
  cases answer <;> rfl

/-- A question that is run with the deadline of its budget, and whose end is read as that of the
probe, keeps the budget. -/
theorem keepsBudget_of_run {settings : ProviderSettings} (username entry : String) (group : Group)
    {r : Responder σ} {since time : Rat} {state : σ} {p : Process (Except Problem Bool)}
    {outcome : Outcome} {requests : List (Rat × Request)}
    (hpositive : Binary64.zero.lt settings.probeTimeout = true)
    (hfinished : ∀ t answer,
      (p.run r ((budget settings).map (since + ·)) since state).ending = .finished t answer →
        time = t ∧ outcome = gather [(conclude settings username entry group (some answer)).2])
    (hstopped : ∀ t,
      (p.run r ((budget settings).map (since + ·)) since state).ending = .stopped t →
        time = t ∧ outcome = gather [(conclude settings username entry group none).2])
    (hrequests : requests =
      (p.run r ((budget settings).map (since + ·)) since state).trace.requests) :
    KeepsBudget settings entry since (p.run r none since state) time outcome requests := by
  obtain ⟨hbudget, hseconds⟩ := budget_eq hpositive
  rw [hbudget] at hfinished hstopped hrequests
  constructor
  · intro t answer halone hinTime
    have hsame : p.run r (settings.probeTimeout.toRat?.map (since + ·)) since state =
        p.run r none since state := by
      rcases hlimit : settings.probeTimeout.toRat? with _ | seconds
      · rfl
      · have hlt := hinTime seconds hlimit
        exact Process.run_of_finished halone (by linarith)
    rw [hsame] at hfinished hrequests
    obtain ⟨htime, houtcome⟩ := hfinished t _ halone
    refine ⟨htime, ?_, hrequests⟩
    rw [houtcome, conclude_resolved]
    rfl
  · intro seconds hlimit hlate
    have hnow : since < since + seconds := by linarith [hseconds seconds hlimit]
    obtain ⟨hending, htrace⟩ := Process.stopped_of_late hnow fun t answer halone ↦ by
      linarith [hlate t answer halone]
    rw [hlimit] at hstopped hrequests
    obtain ⟨htime, houtcome⟩ := hstopped _ hending
    refine ⟨htime, houtcome, ?_⟩
    rw [← Trace.requests_filter, ← htrace]
    exact hrequests

section Budget

variable {responder : Responder σ} {user : User} {token : Tokens} {now : Rat} {state : σ}

theorem budget_of_group {settings : ProviderSettings} {entry : String} {group : Group}
    (h : Group.ofEntry? entry = some group) :
    (job settings user token entry).budget = budget settings := by
  unfold job
  rw [h]

/-- A probe on its own keeps the budget. -/
theorem probeEntry_keepsBudget {settings : ProviderSettings} {entry : String} {group : Group}
    (hpositive : Binary64.zero.lt settings.probeTimeout = true)
    (hgroup : Group.ofEntry? entry = some group) :
    let probe := probeEntry responder settings user token entry none now state
    KeepsBudget settings entry now ((ask settings user token group).run responder none now state)
      probe.time probe.outcome probe.trace.requests := by
  intro probe
  obtain ⟨hprocess, hconclude⟩ := @job_of_group settings user token group entry hgroup
  have hlimit (deadline : Option Rat) : earlier deadline none = deadline := by
    cases deadline <;> rfl
  have hprobe : probe = closeRun (job settings user token entry)
      ((budget settings).map (now + ·)) none
      ((ask settings user token group).run responder ((budget settings).map (now + ·)) now
        state) := by
    show closeRun _ _ _ _ = _
    rw [budget_of_group hgroup, hprocess, hlimit]
  refine keepsBudget_of_run user.username entry group hpositive ?_ ?_ ?_
  · intro t answer hending
    rw [hprobe, closeRun, hending, hconclude]
    exact ⟨rfl, rfl⟩
  · intro t hending
    obtain ⟨d, hd⟩ := Option.ne_none_iff_exists'.mp (Process.last_ne_none_of_stopped hending)
    have hends : endsFirst ((budget settings).map (now + ·)) none = true := by
      rw [hd]
      rfl
    rw [hprobe, closeRun, hending]
    simp only [hends, if_true, hconclude, and_self]
  · rw [hprobe]
    exact requests_closeRun ..

variable {settings : Settings} {last : Option Rat}

/-- A probe of a fan-out keeps the budget from the instant on at which it got its slot. -/
theorem halted_keepsBudget {entry : String} {group : Group} {e : Ended (Except Fault Membership)}
    (hpositive : Binary64.zero.lt settings.provider.probeTimeout = true)
    (he : e ∈ (halted responder settings user token now state last).1.ended)
    (hentry : settings.whitelist.teams[e.position]? = some entry)
    (hgroup : Group.ofEntry? entry = some group) :
    ∃ since answers requests,
      ⟨e.position, since⟩ ∈ (halted responder settings user token now state last).1.begun ∧
        requests.Sublist
          (halted responder settings user token now state last).1.trace.requests ∧
        List.Forall₂ responder.Gives requests answers ∧
        ∀ more, KeepsBudget settings.provider entry since
          ((ask settings.provider user token group).run replay none since (answers ++ more))
          e.time (gather [e.result]) requests := by
  obtain ⟨j, since, own, answers, ending, hjob, hfollows, hends⟩ :=
    ((Pool.leads_run ..).1.solo jobs_budget_nonneg).ended e he
  rw [List.getElem?_map, hentry, Option.map_some, Option.some.injEq] at hjob
  subst hjob
  obtain ⟨hprocess, hconclude⟩ := @job_of_group settings.provider user token group entry hgroup
  refine ⟨since, answers, own.requests, hfollows.begins, hfollows.does.filterMap _,
    hfollows.gives, fun more ↦ ?_⟩
  have halone := hfollows.alone more
  rw [hprocess, budget_of_group hgroup] at halone
  rw [hconclude] at hends
  refine keepsBudget_of_run user.username entry group hpositive ?_ ?_ ?_
  · rw [halone]
    rintro t answer rfl
    rcases hends with ⟨result, hfinished, hresult⟩ | ⟨hstopped, -⟩
    · cases hfinished
      exact ⟨rfl, by rw [hresult]⟩
    · cases hstopped
  · rw [halone]
    rintro t rfl
    rcases hends with ⟨result, hfinished, -⟩ | ⟨hstopped, hresult⟩
    · cases hfinished
    · cases hstopped
      exact ⟨rfl, by rw [hresult]⟩
  · rw [halone]
    exact congrArg _ (List.append_nil own).symm

/-- The budget of an entry is positive. A probe on its own ends with the answer to its question if
that takes less time, after the same requests, and else when the budget is used up. A probe of a
fan-out does the same from the instant on at which it gets its slot, however long it waited for it:
with the answers that the provider gave to it, its question asked without a budget from that instant
on comes to the same. -/
theorem probeEntry_budget (hpositive : Binary64.zero.lt settings.provider.probeTimeout = true) :
    (∀ entry group, Group.ofEntry? entry = some group →
      let probe := probeEntry responder settings.provider user token entry none now state
      KeepsBudget settings.provider entry now
        ((ask settings.provider user token group).run responder none now state)
        probe.time probe.outcome probe.trace.requests) ∧
      let fan := fanOut responder settings user token last now state
      let left := (halted responder settings user token now state last).1
      ∀ e ∈ left.ended, ∀ entry group, settings.whitelist.teams[e.position]? = some entry →
        Group.ofEntry? entry = some group →
          ∃ since answers requests,
            ⟨e.position, since⟩ ∈ left.begun ∧ requests.Sublist fan.trace.requests ∧
              List.Forall₂ responder.Gives requests answers ∧
              ∀ more, KeepsBudget settings.provider entry since
                ((ask settings.provider user token group).run replay none since (answers ++ more))
                e.time (gather [e.result]) requests :=
  ⟨fun _ _ hgroup ↦ probeEntry_keepsBudget hpositive hgroup,
    fun _ he _ _ hentry hgroup ↦ halted_keepsBudget hpositive he hentry hgroup⟩

end Budget

/-! ### A queue of slow answers -/

/-- A provider that takes three seconds for one organization and nine for another. -/
def slowScript : Script := [
  { url := "https://api.github.com/orgs/a/members/u"
    first := ⟨.response { status := 204 }, 3, 0⟩ },
  { url := "https://api.github.com/orgs/b/members/u"
    first := ⟨.response { status := 204 }, 9, 0⟩ }]

/-- One slot, and four seconds for each entry. -/
def slowSettings : Settings :=
  { provider := { probeConcurrency := 1, probeTimeout := .finite 4 }
    whitelist := { teams := ["a", "a", "b"] } }

/-- The second entry gets its slot after three seconds and ends after six, in time by its own
budget; the third one is given up after ten. -/
theorem probeEntry_budget_queued :
    let user : User := { username := "u" }
    let token : Tokens := { access := "t" }
    let probe := probeEntry Script.responder slowSettings.provider user token "b" none 0 slowScript
    let left := (halted Script.responder slowSettings user token 0 slowScript none).1
    Binary64.zero.lt slowSettings.provider.probeTimeout = true ∧
      probe.time = 4 ∧ probe.outcome = .answers [⟨"b", .failed (.timedOut "b" (.finite 4))⟩] ∧
      probe.trace.requests.length = 1 ∧
      left.begun = [⟨0, 0⟩, ⟨1, 3⟩, ⟨2, 6⟩] ∧ left.ended.map Ended.time = [3, 6, 10] := by
  intro user token probe left
  have hpositive : Binary64.zero.lt slowSettings.provider.probeTimeout = true := by decide
  obtain ⟨hprobe, -⟩ := @probeEntry_budget _ Script.responder user token 0 slowScript slowSettings
    none hpositive
  have hgroup : Group.ofEntry? "b" = some (.organization "b") := by decide +kernel
  have halone : ((ask slowSettings.provider user token (.organization "b")).run Script.responder
      none 0 slowScript).ending.time = 9 := by decide +kernel
  obtain ⟨htime, houtcome, hrequests⟩ := (hprobe "b" _ hgroup).outOfTime 4 rfl fun t answer h ↦ by
    rw [h] at halone
    have ht : t = 9 := halone
    rw [ht]
    norm_num
  have hleft : (left.begun, left.ended.map Ended.time) =
      ([⟨0, 0⟩, ⟨1, 3⟩, ⟨2, 6⟩], [3, 6, 10]) := by decide +kernel
  obtain ⟨hbegun, hended⟩ := Prod.mk.inj hleft
  refine ⟨hpositive, htime.trans (by norm_num), houtcome, ?_, hbegun, hended⟩
  rw [hrequests]
  decide +kernel

end Admission.Probe
