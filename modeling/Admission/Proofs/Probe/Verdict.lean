import Admission.Exchange.Script
import Admission.Probe.Single
import Admission.Proofs.Exchange.Pauses
import Admission.Proofs.Probe.Completion
import Admission.Proofs.Probe.Course
import Admission.Proofs.Probe.Secrecy

/-!
# What probes answer

The answer about an entry is a membership exactly if the response that decides about it confirms
one, none exactly if that response denies it or the entry names no group, and a failure in all other
cases, running out of time among them (`probeEntry_standing`). The deciding response is the last one
of the last query, and there are two queries at most, the second one only after a redirect
(`TwoQueries`).
-/

set_option autoImplicit false
set_option relaxedAutoImplicit false

namespace Admission.Probe

variable {settings : ProviderSettings} {user : User} {token : Tokens} {group : Group}
  {es : List Exchange} {result : Option (Except Problem Bool)}

/-! ### The deciding response -/

/-- The last response of the last query: the second one if the first one ended with a redirect that
is followed. -/
def decidingResponse? (group : Group) (es : List Exchange) : Option Response :=
  if ((finalResponse? (firstQuery es)).bind (followed? group)).isSome then
    finalResponse? (nextQuery es)
  else finalResponse? (firstQuery es)

theorem reads_of_failure {f : Failure} {response? : Option Response}
    (h : ∀ r, response? = some r → isTransient r.status = true ∨ r.isRedirect = true) :
    Reads group response? (.error (.failure f)) :=
  fun r hr ↦ says_nothing (h r hr)

/-- What the last query comes to is what its last response says. -/
theorem reads_of_goes {request : Request} {answer : Option (Except Problem Query.Reply)}
    {x : Except Problem Bool} (hquery : Query.Goes settings request es answer)
    (hends : Concludes group answer (some x)) (hfault : ∀ f, x ≠ .error (.fault f)) :
    Reads group (finalResponse? es) x := by
  obtain ⟨url, before, final, rfl, hcourse⟩ := hquery
  rcases answer with _ | problem | reply
  · cases hends
  · cases hends
    rcases problem with f | f
    · exact reads_of_failure fun r hr ↦ hcourse.passing_of_failure hr
    · exact absurd rfl (hfault f)
  · obtain ⟨y, hy, hreads⟩ := hends
    obtain rfl := Option.some.inj hy
    rwa [hcourse.reply.2.2]

/-- What a question comes to is what the deciding response says. -/
theorem Course.reads {x : Except Problem Bool} (h : Course settings user token group es (some x))
    (hfault : ∀ f, x ≠ .error (.fault f)) : Reads group (decidingResponse? group es) x := by
  generalize hresult : some x = result at h
  cases h with
  | unsent =>
    cases hresult
    exact absurd rfl (hfault _)
  | misled =>
    cases hresult
    exact absurd rfl (hfault _)
  | unsentNext =>
    cases hresult
    exact absurd rfl (hfault _)
  | @single request es answer _ hrequest hquery hends hstays =>
    subst hresult
    obtain ⟨hfirst, hnext⟩ := queries_single hquery
    unfold decidingResponse?
    rw [hfirst, hnext]
    split
    · rename_i hfollowed
      -- the redirect was not followed, so the first query failed and there is no second one
      obtain ⟨url, before, final, rfl, hcourse⟩ := hquery
      rcases answer with _ | problem | reply
      · cases hends
      · cases hends
        rcases problem with f | f
        · exact fun r hr ↦ nomatch hr
        · exact absurd rfl (hfault f)
      · rw [hcourse.reply.2.2, Option.bind_some, hstays reply rfl] at hfollowed
        cases hfollowed
    · exact reads_of_goes hquery hends hfault
  | followed hrequest hquery htarget hpublic hnext hmore hends =>
    subst hresult
    obtain ⟨hfirst, hsecond⟩ := queries_followed hrequest hquery hpublic hnext hmore
    obtain ⟨url, before, final, rfl, hcourse⟩ := hquery
    unfold decidingResponse?
    rw [hfirst, hsecond, hcourse.reply.2.2, Option.bind_some, htarget]
    exact reads_of_goes hmore hends hfault

/-! ### Two queries at most -/

/-- The exchanges of a question are those of two queries: each of them repeats one request so many
times at most, and there is a second one only after a redirect that is followed. -/
structure TwoQueries (settings : ProviderSettings) (group : Group) (es : List Exchange) : Prop where
  first : ∀ e ∈ firstQuery es, ∀ e' ∈ firstQuery es, e.request = e'.request
  next : ∀ e ∈ nextQuery es, ∀ e' ∈ nextQuery es, e.request = e'.request
  first_le : (firstQuery es).length ≤ settings.probeMaxRetries + 1
  next_le : (nextQuery es).length ≤ settings.probeMaxRetries + 1
  redirected : nextQuery es ≠ [] →
    ∃ r, finalResponse? (firstQuery es) = some r ∧ (followed? group r).isSome = true

theorem TwoQueries.length_le (h : TwoQueries settings group es) :
    es.length ≤ 2 * (settings.probeMaxRetries + 1) := by
  have hcut : firstQuery es ++ nextQuery es = es := List.takeWhile_append_dropWhile
  have hlength := congrArg List.length hcut
  have hfirst := h.first_le
  have hnext := h.next_le
  rw [List.length_append] at hlength
  omega

theorem twoQueries_single {request : Request} {answer : Option (Except Problem Query.Reply)}
    (hquery : Query.Goes settings request es answer) : TwoQueries settings group es := by
  obtain ⟨hfirst, hnext⟩ := queries_single hquery
  obtain ⟨url, before, final, rfl, hcourse⟩ := hquery
  constructor
  · rw [hfirst]
    exact fun e he e' he' ↦ (hcourse.requests e he).trans (hcourse.requests e' he').symm
  · rw [hnext]
    exact List.forall_mem_nil _
  · rw [hfirst]
    exact hcourse.length_append_le
  · rw [hnext]
    exact Nat.zero_le _
  · exact fun hne ↦ absurd hnext hne

theorem Course.twoQueries (h : Course settings user token group es result) :
    TwoQueries settings group es := by
  cases h with
  | unsent => exact ⟨nofun, nofun, Nat.zero_le _, Nat.zero_le _, absurd rfl⟩
  | single hrequest hquery hends hstays => exact twoQueries_single hquery
  | misled hrequest hquery htarget hfault => exact twoQueries_single hquery
  | unsentNext hrequest hquery htarget hpublic hfault => exact twoQueries_single hquery
  | followed hrequest hquery htarget hpublic hnext hmore hends =>
    obtain ⟨hfirst, hsecond⟩ := queries_followed hrequest hquery hpublic hnext hmore
    obtain ⟨url, before, final, rfl, hcourse⟩ := hquery
    obtain ⟨url', before', final', rfl, hcourse'⟩ := hmore
    constructor
    · rw [hfirst]
      exact fun e he e' he' ↦ (hcourse.requests e he).trans (hcourse.requests e' he').symm
    · rw [hsecond]
      exact fun e he e' he' ↦ (hcourse'.requests e he).trans (hcourse'.requests e' he').symm
    · rw [hfirst]
      exact hcourse.length_append_le
    · rw [hsecond]
      exact hcourse'.length_append_le
    · intro _
      rw [hfirst]
      exact ⟨_, hcourse.reply.2.2, by rw [htarget]; rfl⟩

/-! ### Probes of single entries -/

variable {σ : Type}

/-- The instant up to which a probe may take: the end of its budget or of the call. -/
def lastInstant (settings : ProviderSettings) (user : User) (token : Tokens) (entry : String)
    (last : Option Rat) (now : Rat) : Option Rat :=
  earlier ((job settings user token entry).budget.map (now + ·)) last

/-- The exchanges of a probe. -/
def probeExchanges (responder : Responder σ) (settings : ProviderSettings) (user : User)
    (token : Tokens) (entry : String) (last : Option Rat) (now : Rat) (state : σ) :
    List Exchange :=
  (job settings user token entry).process.exchanges responder
    (lastInstant settings user token entry last now) now state

/-- What the question of a probe came to; nothing if its time was up before. -/
def probeResult? (responder : Responder σ) (settings : ProviderSettings) (user : User)
    (token : Tokens) (entry : String) (last : Option Rat) (now : Rat) (state : σ) :
    Option (Except Problem Bool) :=
  ((job settings user token entry).process.run responder
    (lastInstant settings user token entry last now) now state).ending.result?

section Probes

variable {responder : Responder σ} {entry : String} {last : Option Rat} {now : Rat} {state : σ}

/-- What is noted at the end of a probe adds no requests. -/
theorem requests_append_quiet (trace : Trace) {whats : List Occurrence} (h : Quiet whats)
    (time : Rat) :
    Trace.requests (trace ++ whats.map fun what ↦ ⟨time, what⟩) = trace.requests := by
  unfold Trace.requests
  rw [List.filterMap_append]
  refine (congrArg _ (List.filterMap_eq_nil_iff.mpr fun e he ↦ ?_)).trans (List.append_nil _)
  obtain ⟨what, hwhat, rfl⟩ := List.mem_map.mp he
  dsimp only
  split
  · rename_i r
    exact absurd rfl (h _ hwhat r)
  · rfl

/-- A probe sends what its question sends. -/
theorem requests_closeRun (deadline last : Option Rat)
    (run : Process.Run (Except Problem Bool) σ) :
    (closeRun (job settings user token entry) deadline last run).trace.requests =
      run.trace.requests := by
  have hquiet := quiet_job settings user token entry
  unfold closeRun
  dsimp only
  split
  · exact requests_append_quiet _ (hquiet _) _
  · split
    · exact requests_append_quiet _ (hquiet _) _
    · rfl
  · rfl

/-- The requests of a probe are those of its exchanges. -/
theorem requests_probeEntry :
    (probeEntry responder settings user token entry last now state).trace.requests.map Prod.snd =
      (probeExchanges responder settings user token entry last now state).map
        Exchange.request := by
  unfold probeExchanges
  rw [← Process.requests_run]
  exact congrArg _ (requests_closeRun ..)

theorem outcome_of_result {x : Except Problem Bool}
    (h : probeResult? responder settings user token entry last now state = some x) :
    (probeEntry responder settings user token entry last now state).outcome =
      gather [((job settings user token entry).conclude (some x)).2] := by
  unfold probeResult? lastInstant at h
  unfold probeEntry closeRun
  dsimp only
  split
  · rename_i hending
    rw [hending] at h
    cases h
    rfl
  · rename_i hending
    rw [hending] at h
    cases h
  · rename_i hending
    rw [hending] at h
    cases h

/-- What stops before the end of its budget does so because the call is given up. -/
theorem ne_none_of_not_endsFirst {deadline : Option Rat} (h : earlier deadline last ≠ none)
    (hends : ¬endsFirst deadline last = true) : last ≠ none := by
  rintro rfl
  rcases deadline with _ | d
  · exact h rfl
  · exact hends rfl

/-- A probe whose time is up fails, unless the call is given up before, or nothing limits the time
and the probe pauses forever. -/
theorem outcome_of_none
    (h : probeResult? responder settings user token entry last now state = none) :
    let outcome := (probeEntry responder settings user token entry last now state).outcome
    outcome = gather [((job settings user token entry).conclude none).2] ∨
      outcome = .cancelled ∧ last ≠ none ∨
      outcome = .stuck ∧ lastInstant settings user token entry last now = none ∧
        ¬(job settings user token entry).process.PausesEnd := by
  unfold probeResult? at h
  unfold probeEntry closeRun
  dsimp only
  split
  · rename_i hending
    unfold lastInstant at h
    rw [hending] at h
    cases h
  · rename_i hending
    have hlast := Process.last_ne_none_of_stopped hending
    split
    · exact .inl rfl
    · rename_i hgivenUp
      exact .inr (.inl ⟨rfl, ne_none_of_not_endsFirst hlast hgivenUp⟩)
  · rename_i hending
    exact .inr (.inr ⟨rfl, Process.last_eq_none_of_never hending, fun h ↦ h.ne_never hending⟩)

theorem job_of_group (h : Group.ofEntry? entry = some group) :
    (job settings user token entry).process = ask settings user token group ∧
      (job settings user token entry).conclude = conclude settings user.username entry group := by
  unfold job
  simp only [h, and_self]

theorem job_of_none (h : Group.ofEntry? entry = none) :
    (job settings user token entry).process = .done (.ok false) ∧
      (job settings user token entry).conclude = fun _ ↦ malformed entry := by
  unfold job
  simp only [h, and_self]

/-- The exchanges of a probe lead to what its question came to. -/
theorem course_of_probe (h : Group.ofEntry? entry = some group) :
    Course settings user token group
      (probeExchanges responder settings user token entry last now state)
      (probeResult? responder settings user token entry last now state) := by
  refine course_of_unfolds ?_
  unfold probeExchanges probeResult?
  rw [(job_of_group h).1]
  exact Process.unfolds_run ..

theorem eq_of_gather_singleton {x : Except Fault Membership} {results : List Membership}
    (h : gather [x] = .answers results) : ∃ m, x = .ok m ∧ results = [m] := by
  have hresults := eq_of_gather h
  rcases results with _ | ⟨m, _ | ⟨m', results⟩⟩
  · cases hresults
  · cases hresults
    exact ⟨m, rfl, rfl⟩
  · cases hresults

/-- An entry that names no group is not asked about. -/
theorem probe_malformed (h : Group.ofEntry? entry = none) :
    probeExchanges responder settings user token entry last now state = [] ∧
      probeResult? responder settings user token entry last now state = some (.ok false) ∧
      (probeEntry responder settings user token entry last now state).outcome =
        .answers [⟨entry, .notMember⟩] := by
  obtain ⟨hprocess, hconclude⟩ := @job_of_none settings user token entry h
  have hresult : probeResult? responder settings user token entry last now state =
      some (.ok false) := by
    unfold probeResult?
    rw [hprocess]
    rfl
  refine ⟨?_, hresult, ?_⟩
  · unfold probeExchanges
    rw [hprocess]
    rfl
  · rw [outcome_of_result hresult, hconclude]
    rfl

/-- The standing that the answer of a probe stands for. -/
theorem standing_of_answers {results : List Membership} (hgroup : Group.ofEntry? entry = some group)
    (h : (probeEntry responder settings user token entry last now state).outcome =
      .answers results) :
    ∃ s, results = [⟨entry, s⟩] ∧
      standing settings entry (probeResult? responder settings user token entry last now state) =
        .ok s := by
  have hconclude := (@job_of_group settings user token group entry hgroup).2
  have hgather : gather [((job settings user token entry).conclude
      (probeResult? responder settings user token entry last now state)).2] = .answers results := by
    rcases hresult : probeResult? responder settings user token entry last now state with _ | x
    · rcases outcome_of_none hresult with houtcome | ⟨houtcome, -⟩ | ⟨houtcome, -⟩
      · exact houtcome.symm.trans h
      · rw [houtcome] at h
        cases h
      · rw [houtcome] at h
        cases h
    · exact (outcome_of_result hresult).symm.trans h
  obtain ⟨m, hm, rfl⟩ := eq_of_gather_singleton hgather
  rw [hconclude, conclude] at hm
  split at hm
  · rename_i s hs
    cases hm
    exact ⟨s, rfl, hs⟩
  · cases hm

end Probes

theorem not_denies_of_confirms {r : Response} (h : Confirms group r) : ¬Denies group r := by
  cases group with
  | organization org =>
    intro hdenies
    have hstatus : r.status = 404 := hdenies
    rcases h with h | h <;> omega
  | team org name =>
    obtain ⟨hstatus, m, hm, hactive⟩ := h
    rintro (hdenies | ⟨-, m', hm', hinactive⟩)
    · omega
    · rw [hm] at hm'
      cases hm'
      exact hinactive hactive

/-- The standing of a probe whose question came to a result is what the deciding response says. -/
theorem standing_iff_of_reads {entry : String} {response? : Option Response} {s : Standing}
    {x : Except Problem Bool} (hreads : Reads group response? x)
    (hs : standing settings entry (some x) = .ok s) :
    (s = .member ↔ ∃ r, response? = some r ∧ Confirms group r) ∧
      (s = .notMember ↔ ∃ r, response? = some r ∧ Denies group r) := by
  rcases x with (f | f) | _ | _
  · obtain rfl : Standing.failed f = s := Except.ok.inj hs
    refine ⟨iff_of_false nofun ?_, iff_of_false nofun ?_⟩
    · exact fun ⟨r, hr, hconfirms⟩ ↦ (hreads r hr).1 hconfirms
    · exact fun ⟨r, hr, hdenies⟩ ↦ (hreads r hr).2 hdenies
  · exact hreads.elim
  · obtain rfl : Standing.notMember = s := Except.ok.inj hs
    refine ⟨iff_of_false nofun ?_, iff_of_true rfl hreads⟩
    rintro ⟨r, hr, hconfirms⟩
    obtain ⟨r', hr', hdenies⟩ := hreads
    obtain rfl := Option.some.inj (hr.symm.trans hr')
    exact not_denies_of_confirms hconfirms hdenies
  · obtain rfl : Standing.member = s := Except.ok.inj hs
    refine ⟨iff_of_true rfl hreads, iff_of_false nofun ?_⟩
    rintro ⟨r, hr, hdenies⟩
    obtain ⟨r', hr', hconfirms⟩ := hreads
    obtain rfl := Option.some.inj (hr.symm.trans hr')
    exact not_denies_of_confirms hconfirms hdenies

theorem isSome_error?_iff {s : Standing} :
    s.error?.isSome = true ↔ s ≠ .member ∧ s ≠ .notMember := by
  cases s <;> simp [Standing.error?]

/-- Whenever a probe answers, it answers about its entry. The answer is a membership exactly if the
deciding response came in time and confirms one, and it is none exactly if that response came in
time and denies one, or the entry names no group and nothing was asked. In all other cases it is a
failure. There is a second query only after a redirect, and none after it. -/
theorem probeEntry_standing {responder : Responder σ} {entry : String}
    {last : Option Rat} {now : Rat} {state : σ} {results : List Membership}
    (h : (probeEntry responder settings user token entry last now state).outcome =
      .answers results) :
    let requests :=
      (probeEntry responder settings user token entry last now state).trace.requests
    let es := probeExchanges responder settings user token entry last now state
    let inTime := probeResult? responder settings user token entry last now state ≠ none
    ∃ standing, results = [⟨entry, standing⟩] ∧
      (standing = .member ↔ ∃ group r, Group.ofEntry? entry = some group ∧ inTime ∧
        decidingResponse? group es = some r ∧ Confirms group r) ∧
      (standing = .notMember ↔ Group.ofEntry? entry = none ∨
        ∃ group r, Group.ofEntry? entry = some group ∧ inTime ∧
          decidingResponse? group es = some r ∧ Denies group r) ∧
      (standing.error?.isSome = true ↔ standing ≠ .member ∧ standing ≠ .notMember) ∧
      (¬inTime → standing = .failed (.timedOut entry settings.probeTimeout)) ∧
      requests.map Prod.snd = es.map Exchange.request ∧
      (Group.ofEntry? entry = none → requests = []) ∧
      (∀ group, Group.ofEntry? entry = some group → TwoQueries settings group es) ∧
      requests.length ≤ 2 * (settings.probeMaxRetries + 1) := by
  intro requests es inTime
  have hrequests : requests.map Prod.snd = es.map Exchange.request := requests_probeEntry
  have hlength : requests.length = es.length := by
    rw [← List.length_map Prod.snd, hrequests, List.length_map]
  rcases hgroup : Group.ofEntry? entry with _ | group
  · obtain ⟨hnone, hresult, houtcome⟩ :=
      @probe_malformed settings user token σ responder entry last now state hgroup
    obtain rfl := Outcome.answers.inj (houtcome.symm.trans h)
    have hempty : requests.length = 0 := by
      rw [hlength]
      exact congrArg List.length hnone
    refine ⟨.notMember, rfl, ?_, ?_, isSome_error?_iff, ?_, hrequests,
      fun _ ↦ List.eq_nil_of_length_eq_zero hempty, nofun, ?_⟩
    · simp
    · simp
    · exact fun hlate ↦ absurd hresult (by simp [not_not.mp hlate])
    · rw [hempty]
      exact Nat.zero_le _
  · have hcourse :=
      @course_of_probe settings user token group σ responder entry last now state hgroup
    obtain ⟨s, rfl, hs⟩ := standing_of_answers hgroup h
    have htwo : TwoQueries settings group es := hcourse.twoQueries
    have hiff : (s = .member ↔ inTime ∧ ∃ r, decidingResponse? group es = some r ∧
          Confirms group r) ∧
        (s = .notMember ↔ inTime ∧ ∃ r, decidingResponse? group es = some r ∧ Denies group r) ∧
        (¬inTime → s = .failed (.timedOut entry settings.probeTimeout)) := by
      rcases hresult : probeResult? responder settings user token entry last now state with _ | x
      · have hlate : ¬inTime := not_not.mpr hresult
        rw [hresult] at hs
        obtain rfl : Standing.failed (.timedOut entry settings.probeTimeout) = s := Except.ok.inj hs
        exact ⟨iff_of_false nofun fun h ↦ hlate h.1, iff_of_false nofun fun h ↦ hlate h.1,
          fun _ ↦ rfl⟩
      · have htime : inTime := by simp [inTime, hresult]
        rw [hresult] at hs hcourse
        have hfault : ∀ f, x ≠ .error (.fault f) := by
          rintro f rfl
          cases hs
        obtain ⟨hmember, hnotMember⟩ := standing_iff_of_reads (hcourse.reads hfault) hs
        exact ⟨hmember.trans (and_iff_right htime).symm,
          hnotMember.trans (and_iff_right htime).symm, absurd htime⟩
    obtain ⟨hmember, hnotMember, hlate⟩ := hiff
    refine ⟨s, rfl, ?_, ?_, isSome_error?_iff, hlate, hrequests, nofun, ?_,
      hlength.trans_le htwo.length_le⟩
    · simp only [hmember, Option.some.injEq, exists_and_left, exists_eq_left']
    · simp only [hnotMember, reduceCtorEq, false_or, Option.some.injEq, exists_and_left,
        exists_eq_left']
    · rintro group' ⟨⟩
      exact htwo

deriving instance DecidableEq for Outcome

/-- A provider that does not tell about an organization, and is out of order for a moment when it is
asked for the public members. -/
def discreetScript : Script := [
  { url := "https://api.github.com/orgs/org/members/u"
    first := ⟨.response
      { status := 302
        headers := [("Location".toUTF8.toList,
          "https://api.github.com/orgs/org/public_members/u".toUTF8.toList)] }, 0, 0⟩ },
  { url := "https://api.github.com/orgs/org/public_members/u"
    first := ⟨.response { status := 503 }, 0, 0⟩
    more := [⟨.response { status := 204 }, 0, 0⟩] }]

/-- The second response to the second query decides. -/
theorem probeEntry_standing_discreet :
    let user : User := { username := "u" }
    let token : Tokens := { access := "t" }
    let probe := probeEntry Script.responder {} user token "org" none 0 discreetScript
    let es := probeExchanges Script.responder {} user token "org" none 0 discreetScript
    probe.outcome = .answers [⟨"org", .member⟩] ∧ probe.trace.requests.length = 3 ∧
      ∃ r, decidingResponse? (.organization "org") es = some r ∧
        Confirms (.organization "org") r := by
  intro user token probe es
  have houtcome : probe.outcome = .answers [⟨"org", .member⟩] := by decide +kernel
  obtain ⟨s, hs, hmember, -⟩ := probeEntry_standing houtcome
  obtain rfl : Standing.member = s := by
    cases hs
    rfl
  obtain ⟨group, r, hgroup, -, hr, hconfirms⟩ := hmember.mp rfl
  obtain rfl : .organization "org" = group := by
    have hread : Group.ofEntry? "org" = some (.organization "org") := by decide +kernel
    exact Option.some.inj (hread.symm.trans hgroup)
  exact ⟨houtcome, by decide +kernel, r, hr, hconfirms⟩

end Admission.Probe
