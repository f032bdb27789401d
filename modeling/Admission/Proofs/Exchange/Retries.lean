import Admission.Proofs.Exchange.Attempts
import Admission.Proofs.Exchange.Conversation
import Admission.Proofs.Outcome

/-!
# How often a query is sent again

The last attempt of a query is the first one that does not fail in passing, or else the last one
that its settings allow (`lastAttempt`). Each attempt before it is followed by a notice and a pause,
and what came of it is what comes of the query (`converse_attempts`, by induction on the attempts
that are left; `get_retries`). The same query as a loop over the numbers of its attempts, which
tests each time whether it is the last, never runs to the end of the loop (`rounds_range'`).
-/

set_option autoImplicit false
set_option relaxedAutoImplicit false

namespace Admission.Query

variable {settings : ProviderSettings} {url : String} {request : Request}

/-! ### The last attempt -/

/-- The number of the last attempt, counted from zero, if there may be so many retries. -/
def lastAttempt (received : Nat → Except Fault Answer) (retries : Nat) : Nat :=
  ((List.range retries).find? fun i ↦ !isPassing (received i)).getD retries

section LastAttempt

variable {received : Nat → Except Fault Answer} {retries : Nat}

theorem lastAttempt_zero : lastAttempt received 0 = 0 :=
  rfl

/-- A first attempt that does not fail in passing is the last one. -/
theorem lastAttempt_of_settled (h : isPassing (received 0) = false) :
    lastAttempt received retries = 0 := by
  unfold lastAttempt
  cases retries with
  | zero => rfl
  | succ retries =>
    rw [List.range_succ_eq_map, List.find?_cons_of_pos (by rw [h]; rfl), Option.getD_some]

/-- After a first attempt that fails in passing the last one is that among the others. -/
theorem lastAttempt_of_passing (h : isPassing (received 0) = true) :
    lastAttempt received (retries + 1) = lastAttempt (fun i ↦ received (i + 1)) retries + 1 := by
  unfold lastAttempt
  rw [List.range_succ_eq_map, List.find?_cons_of_neg (by rw [h]; exact Bool.false_ne_true),
    List.find?_map, Option.getD_map]
  rfl

theorem lastAttempt_le : lastAttempt received retries ≤ retries := by
  unfold lastAttempt
  rcases hfind : (List.range retries).find? fun i ↦ !isPassing (received i) with _ | i
  · exact Nat.le_refl retries
  · exact Nat.le_of_lt (List.mem_range.mp (List.mem_of_find?_eq_some hfind))

end LastAttempt

/-! ### The conversation of a query -/

/-- An attempt that failed in passing, with the notice and the pause behind it. -/
def retry (url : String) (request : Request) (attempt : Nat) (received : Except Fault Answer)
    (pause : Binary64) : List Action :=
  [.asked request, .noticed (retryNotice url attempt received pause), .paused pause]

/-- Up to 1024 attempts a pause can be computed after each. -/
theorem exists_pauses (settings : ProviderSettings) (received : Nat → Except Fault Answer) :
    ∃ pauses : Nat → Binary64,
      ∀ i < 1024, delayFor settings i (retryAfter? (received i)) = .ok (pauses i) := by
  refine ⟨fun i ↦ (delayFor settings i (retryAfter? (received i))).toOption.getD .zero, ?_⟩
  intro i hi
  obtain ⟨seconds, hseconds⟩ := delayFor_of_lt settings hi (retryAfter? (received i))
  dsimp only
  rw [hseconds]
  rfl

/-- A query goes through its attempts up to the last one. -/
theorem converse_attempts (url : String) {answers : Nat → Answer}
    {received : Nat → Except Fault Answer} {pauses : Nat → Binary64} {attempt more : Nat}
    (hreceived : ∀ i, request.receive (answers i) = received i)
    (hpauses : ∀ i < more,
      delayFor settings (attempt + i) (retryAfter? (received i)) = .ok (pauses i)) :
    (attempts settings url request attempt more).converse answers =
      ⟨((List.range (lastAttempt received more)).flatMap fun i ↦
          retry url request (attempt + i) (received i) (pauses i)) ++ [.asked request],
        conclude url request.url (received (lastAttempt received more))⟩ := by
  induction more generalizing attempt answers received pauses with
  | zero =>
    rw [lastAttempt_zero, ← hreceived 0]
    rfl
  | succ more ih =>
    rw [attempts, Process.converse, hreceived 0]
    rcases hpasses : isPassing (received 0) with _ | _
    · rw [step_settled settings url request.url attempt hpasses, lastAttempt_of_settled hpasses]
      rfl
    · have hshift : ∀ i, attempt + 1 + i = attempt + (i + 1) := fun i ↦ by omega
      have hlater : ∀ i < more, delayFor settings (attempt + 1 + i)
          (retryAfter? (received (i + 1))) = .ok (pauses (i + 1)) := by
        intro i hi
        rw [hshift]
        exact hpauses (i + 1) (Nat.succ_lt_succ hi)
      have hrest := ih (fun i ↦ hreceived (i + 1)) hlater
      have hpause := hpauses 0 (Nat.succ_pos more)
      rw [Nat.add_zero] at hpause
      rw [step_passing settings url request.url attempt hpasses, hpause,
        lastAttempt_of_passing hpasses, List.range_succ_eq_map, List.flatMap_cons, List.flatMap_map]
      simp only [again, Process.converse, hrest, hshift]
      rfl

section Actions

variable {received : Nat → Except Fault Answer} {pauses : Nat → Binary64} {last : Nat}

/-- The pauses of a query are those after its attempts but the last one. -/
theorem paused_mem_iff {seconds : Binary64} :
    .paused seconds ∈ ((List.range last).flatMap fun i ↦
        retry url request i (received i) (pauses i)) ++ [.asked request] ↔
      ∃ i < last, seconds = pauses i := by
  simp [retry]

/-- What shows of a query in a trace. -/
theorem filterMap_retries :
    (((List.range last).flatMap fun i ↦ retry url request i (received i) (pauses i)) ++
        [Action.asked request]).filterMap Action.occurrence? =
      ((List.range last).flatMap fun i ↦ [.sent request,
        .noticed (retryNotice url i (received i) (pauses i))]) ++ [.sent request] := by
  rw [List.filterMap_append, List.filterMap_flatMap]
  rfl

/-- The fields of a notice name the attempt, counted from one, and the pause behind it. -/
theorem extra_retryNotice (attempt : Nat) (received : Except Fault Answer) (pause : Binary64) :
    (retryNotice url attempt received pause).record.extra =
      Notice.retryFields url (attempt + 1) pause := by
  unfold retryNotice
  split
  · rfl
  · rfl

end Actions

/-! ### The same query as a loop -/

/-- Goes on after a pause, if it can be computed. -/
def pauseThen (pause : Except Fault Binary64) (note : Binary64 → Notice)
    (rest : Process (Option (Except Problem Reply))) : Process (Option (Except Problem Reply)) :=
  match pause with
  | .ok seconds => .notice (note seconds) (.pause seconds rest)
  | .error f => .done (some (.error (.fault f)))

/-- A query as a loop over the numbers of its attempts, of which that of the last one is known; none
if the loop comes to its end. -/
def rounds (settings : ProviderSettings) (url : String) (request : Request) :
    List Nat → Process (Option (Except Problem Reply))
  | [] => .done none
  | attempt :: rest => .ask request fun answer ↦
    match request.receive answer with
    | .ok (.broken reason) =>
      if attempt = settings.probeMaxRetries then
        .done (some (.error (.failure (.unreachable url reason))))
      else
        pauseThen (delayFor settings attempt none) (.retryUnanswered url (attempt + 1))
          (rounds settings url request rest)
    | .ok (.response r) =>
      if !isTransient r.status || attempt = settings.probeMaxRetries then
        .done (some (.ok ⟨request.url, r⟩))
      else
        pauseThen (delayFor settings attempt r.retryAfter?)
          (.retryStatus r.status url (attempt + 1)) (rounds settings url request rest)
    | .error f => .done (some (.error (.fault f)))

/-- A pause in the loop is one of the query, if the loop goes on as the query does. -/
theorem pauseThen_bind (pause : Except Fault Binary64) (note : Binary64 → Notice)
    (rest : Process (Except Problem Reply)) :
    pauseThen pause note (rest.bind fun result ↦ .done (some result)) =
      (match again pause note with
        | .settled result => Process.done result
        | .again n seconds => Process.notice n (.pause seconds rest)).bind
          fun result ↦ .done (some result) := by
  rcases pause with f | seconds
  · rfl
  · rfl

/-- The loop over all attempts that are left is the query, whose result is that of one of them. -/
theorem rounds_range' {attempt more : Nat} (h : attempt + more = settings.probeMaxRetries) :
    rounds settings url request (List.range' attempt (more + 1)) =
      (attempts settings url request attempt more).bind fun result ↦ .done (some result) := by
  induction more generalizing attempt with
  | zero =>
    have hlast : attempt = settings.probeMaxRetries := h
    rw [List.range'_one, rounds, attempts, Process.bind]
    congr 1
    funext answer
    rcases request.receive answer with f | r | reason
    · rfl
    · simp [hlast, conclude, Process.bind]
    · simp [hlast, conclude, Process.bind]
  | succ more ih =>
    have hmore : attempt ≠ settings.probeMaxRetries := by omega
    have hrest := @ih (attempt + 1) (by omega)
    rw [List.range'_succ, rounds, attempts, Process.bind]
    congr 1
    funext answer
    rcases request.receive answer with f | r | reason
    · rfl
    · by_cases htransient : isTransient r.status = true
      · simp only [htransient, hmore, step, hrest, pauseThen_bind]
        rfl
      · simp [htransient, step, Process.bind]
    · simp only [hmore, step, hrest, pauseThen_bind]
      rfl

/-! ### What comes of a query -/

/-- A query sends the same request up to its last attempt, and pauses after each one but that, as
long as that attempt and its answer say; the notices number the attempts from one. What came of the
last attempt comes of the query: its response, whatever the status, or the failure to get one. The
loop that tests for the last attempt does the same and never comes to its end. In time, too, nothing
else happens, unless a pause lasts forever. -/
theorem get_retries {parameter : Option (String × String)} {deliveries : Nat → Delivery}
    {received : Nat → Except Fault Answer} {last : Nat}
    (hretries : settings.probeMaxRetries ≤ 1024)
    (hmake : Request.make url parameter none = .ok request)
    (hreceived : ∀ i, request.receive (deliveries i).answer = received i)
    (hlast : lastAttempt received settings.probeMaxRetries = last) :
    ∃ pauses : Nat → Binary64,
      (∀ i < last, delayFor settings i (retryAfter? (received i)) = .ok (pauses i)) ∧
      (get settings url parameter).converse (fun i ↦ (deliveries i).answer) =
        ⟨((List.range last).flatMap fun i ↦ retry url request i (received i) (pauses i)) ++
            [.asked request],
          conclude url request.url (received last)⟩ ∧
      (∀ i < last, (retryNotice url i (received i) (pauses i)).record.extra =
        Notice.retryFields url (i + 1) (pauses i)) ∧
      (∀ r, received last = .ok (.response r) →
        conclude url request.url (received last) = .ok ⟨request.url, r⟩) ∧
      (∀ reason, received last = .ok (.broken reason) →
        conclude url request.url (received last) = .error (.failure (.transport
          s!"Unable to reach identity provider at {url}: {reason}" (some url)))) ∧
      rounds settings url request (List.range (settings.probeMaxRetries + 1)) =
        (get settings url parameter).bind (fun result ↦ .done (some result)) ∧
      ∀ now, (∀ i < last, pauses i ≠ .infinite false) →
        ∃ time, ((get settings url parameter).run inTurn none now deliveries).ending =
            .finished time (conclude url request.url (received last)) ∧
          ((get settings url parameter).run inTurn none now deliveries).trace.map Event.what =
            ((List.range last).flatMap fun i ↦ [.sent request,
              .noticed (retryNotice url i (received i) (pauses i))]) ++ [.sent request] := by
  have hle : last ≤ settings.probeMaxRetries := hlast ▸ lastAttempt_le
  obtain ⟨pauses, hpauses⟩ := exists_pauses settings received
  have hget : get settings url parameter =
      attempts settings url request 0 settings.probeMaxRetries := by
    rw [get, hmake]
  have hcomputed : ∀ i < settings.probeMaxRetries,
      delayFor settings (0 + i) (retryAfter? (received i)) = .ok (pauses i) := by
    intro i hi
    rw [Nat.zero_add]
    exact hpauses i (by omega)
  have hconverse := converse_attempts url hreceived hcomputed
  simp only [Nat.zero_add, hlast, ← hget] at hconverse
  refine ⟨pauses, fun i hi ↦ hpauses i (by omega), hconverse,
    fun i _ ↦ extra_retryNotice i (received i) (pauses i), ?_, ?_, ?_, ?_⟩
  · intro r hr
    rw [hr]
    rfl
  · intro reason hreason
    rw [hreason]
    rfl
  · rw [List.range_eq_range', hget]
    exact rounds_range' (Nat.zero_add _)
  · intro now hends
    rw [Process.run_inTurn, hconverse, ← filterMap_retries]
    refine Process.timed_of_ends ?_ now deliveries
    intro seconds hmem
    obtain ⟨i, hi, rfl⟩ := paused_mem_iff.mp hmem
    exact hends i hi

/-- A provider that asks for a pause of three seconds. -/
def busy : Response where
  status := 503
  headers := [("Retry-After".toUTF8.toList, "3".toUTF8.toList)]

/-- No answer at first, then one that asks for a pause, then statuses that fail in passing as
well. -/
def throttled : Nat → Delivery
  | 0 => ⟨.broken "timed out", 1, 0⟩
  | 1 => ⟨.response busy, 1, 0⟩
  | _ => ⟨.response { status := 429 }, 1, 0⟩

/-- With two retries the third attempt is the last one, and its response is what comes of the
query. -/
theorem get_retries_throttled :
    ∃ request, Request.make "https://api.github.com/user" (some ("access_token", "t")) none =
        .ok request ∧
      (get {} "https://api.github.com/user" (some ("access_token", "t"))).converse
          (fun i ↦ (throttled i).answer) =
        ⟨[.asked request,
            .noticed (.retryUnanswered "https://api.github.com/user" 1 (.ofTenths 5)),
            .paused (.ofTenths 5),
            .asked request,
            .noticed (.retryStatus 503 "https://api.github.com/user" 2 (.ofTenths 30)),
            .paused (.ofTenths 30),
            .asked request],
          .ok ⟨request.url, { status := 429 }⟩⟩ := by
  obtain ⟨request, hmake⟩ : ∃ request, Request.make "https://api.github.com/user"
      (some ("access_token", "t")) none = .ok request := by
    have hmade : (Request.make "https://api.github.com/user"
        (some ("access_token", "t")) none).toOption.isSome = true := by decide +kernel
    obtain ⟨request, hrequest⟩ := Option.isSome_iff_exists.mp hmade
    exact ⟨request, eq_ok_of_toOption hrequest⟩
  have hretries : ({} : ProviderSettings).probeMaxRetries ≤ 1024 := by decide
  have hlast : lastAttempt (fun i ↦ request.receive (throttled i).answer) 2 = 2 := rfl
  obtain ⟨pauses, hpauses, hconverse, -⟩ := get_retries hretries hmake (fun _ ↦ rfl) hlast
  have hfirst : pauses 0 = .ofTenths 5 := by
    have hdelay : delayFor {} 0 none = .ok (.ofTenths 5) := eq_ok_of_toOption (by decide +kernel)
    exact Except.ok.inj ((hpauses 0 (by decide)).symm.trans hdelay)
  have hsecond : pauses 1 = .ofTenths 30 := by
    have hasked : busy.retryAfter? = some "3" := by decide +kernel
    have hdelay : delayFor {} 1 busy.retryAfter? = .ok (.ofTenths 30) := by
      rw [hasked]
      exact eq_ok_of_toOption (by decide +kernel)
    exact Except.ok.inj ((hpauses 1 (by decide)).symm.trans hdelay)
  refine ⟨request, hmake, ?_⟩
  rw [hconverse, ← hfirst, ← hsecond]
  rfl

end Admission.Query
