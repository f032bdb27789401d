import Admission.Exchange.Query
import Admission.Proofs.Exchange.Transcript

/-!
# How queries go

All attempts of a query send the same request. Each of them but the last fails in passing, and there
are no more than the settings allow; `Query.Course` says so, and what the last attempt means for the
query. So a query that is settled had the response that it replies with as its last one
(`Course.reply`), one that fails had no response but passing failures and redirects
(`Course.passing_of_failure`), and it ends with a fault exactly if its last redirect cannot be
completed, or the number of its attempts outgrows the floating point numbers (`Course.fault_iff`).
-/

set_option autoImplicit false
set_option relaxedAutoImplicit false

namespace Admission

/-! ### Answers of exchanges -/

namespace Exchange

/-- What the answer of an exchange means for its request. -/
def received? (e : Exchange) : Option (Except Fault Answer) :=
  e.answer.map e.request.receive

/-- The response of an exchange, if its answer is one. -/
def response? (e : Exchange) : Option Response :=
  match e.answer with
  | some (.response r) => some r
  | _ => none

end Exchange

/-- The last response among some exchanges. -/
def finalResponse? (es : List Exchange) : Option Response :=
  (es.filterMap Exchange.response?).getLast?

theorem finalResponse?_append_singleton {es : List Exchange} {e : Exchange} {r : Response}
    (h : e.response? = some r) : finalResponse? (es ++ [e]) = some r := by
  rw [finalResponse?, List.filterMap_append, List.filterMap_cons_some h, List.filterMap_nil]
  exact List.getLast?_concat

theorem exists_of_finalResponse? {es : List Exchange} {r : Response}
    (h : finalResponse? es = some r) : ∃ e ∈ es, e.response? = some r :=
  List.mem_filterMap.mp (List.mem_of_getLast? h)

namespace Request

/-- A response is received as it came, or not at all. -/
theorem receive_response {request : Request} {answer : Answer} {r : Response}
    (h : request.receive answer = .ok (.response r)) : answer = .response r := by
  unfold receive at h
  split at h
  · cases h
  · split at h
    · rename_i target _ _
      rcases hcheck : checkRedirect request.url target with f | reason
      · rw [hcheck] at h
        cases h
      · rw [hcheck] at h
        rcases reason with _ | reason
        · cases h
          rfl
        · cases h
    · cases h
      rfl

/-- A response is received as it came if it is no redirect with a target. -/
theorem receive_eq_self (request : Request) {r : Response}
    (h : r.isRedirect = true → r.location? = none) :
    request.receive (.response r) = .ok (.response r) := by
  rcases hredirect : r.isRedirect with _ | _
  · simp only [receive, hredirect]
  · simp only [receive, hredirect, h hredirect]

/-- Only a redirect is received as something else. -/
theorem isRedirect_of_receive {request : Request} {r : Response}
    (h : request.receive (.response r) ≠ .ok (.response r)) : r.isRedirect = true := by
  rcases hstays : r.isRedirect with _ | _
  · refine absurd (request.receive_eq_self fun hredirect ↦ ?_) h
    rw [hstays] at hredirect
    cases hredirect
  · rfl

end Request

namespace Query

variable {settings : ProviderSettings} {url : String} {request : Request} {attempt more : Nat}

/-! ### Single attempts -/

/-- An attempt failed in passing, so that another one may follow. -/
def isPassing : Except Fault Answer → Bool
  | .ok (.response r) => isTransient r.status
  | .ok (.broken _) => true
  | .error _ => false

/-- How long the provider asks to wait in what came of an attempt. -/
def retryAfter? : Except Fault Answer → Option String
  | .ok (.response r) => r.retryAfter?
  | _ => none

/-- The notice that the attempt of a number, counted from zero, is followed by another one. -/
def retryNotice (url : String) (attempt : Nat) (received : Except Fault Answer)
    (pause : Binary64) : Notice :=
  match received with
  | .ok (.response r) => .retryStatus r.status url (attempt + 1) pause
  | _ => .retryUnanswered url (attempt + 1) pause

/-- The last attempt of the exchanges failed in passing. -/
def Passes (e : Exchange) : Prop :=
  ∃ received, e.received? = some received ∧ isPassing received = true

section Steps

variable (settings) (url) (asked : Url) {received : Except Fault Answer}

/-- An attempt that did not fail in passing is the last one. -/
theorem step_settled (attempt : Nat) (h : isPassing received = false) :
    step settings url asked attempt received = .settled (conclude url asked received) := by
  rcases received with f | r | reason
  · rfl
  · exact if_neg (Bool.eq_false_iff.mp h)
  · cases h

/-- After an attempt that failed in passing a pause is computed. -/
theorem step_passing (attempt : Nat) (h : isPassing received = true) :
    step settings url asked attempt received =
      again (delayFor settings attempt (retryAfter? received))
        (retryNotice url attempt received) := by
  rcases received with f | r | reason
  · cases h
  · exact if_pos h
  · rfl

theorem delayFor_of_lt (h : attempt < 1024) (retryAfter : Option String) :
    ∃ seconds, delayFor settings attempt retryAfter = .ok seconds := by
  unfold delayFor delay
  rw [if_neg (by omega)]
  exact ⟨_, rfl⟩

/-- No pause can be computed after 1024 retries. -/
theorem delayFor_of_le (h : 1024 ≤ attempt) (retryAfter : Option String) :
    delayFor settings attempt retryAfter = .error .integerTooLarge := by
  unfold delayFor delay
  rw [if_pos (by omega)]

theorem step_again (h : isPassing received = true) (hattempt : attempt < 1024) :
    ∃ n seconds, step settings url asked attempt received = .again n seconds := by
  obtain ⟨seconds, hdelay⟩ := delayFor_of_lt settings hattempt (retryAfter? received)
  exact ⟨_, seconds, by rw [step_passing settings url asked attempt h, hdelay]; rfl⟩

theorem step_overflow (h : isPassing received = true) (hattempt : 1024 ≤ attempt) :
    step settings url asked attempt received = .settled (.error (.fault .integerTooLarge)) := by
  rw [step_passing settings url asked attempt h, delayFor_of_le settings hattempt]
  rfl

end Steps

/-! ### All attempts -/

/-- What the last attempt means for a query that could make some more. -/
inductive Conclusion (url : String) (request : Request) (attempt more : Nat) (e : Exchange) :
    Option (Except Problem Reply) → Prop
  | settled {received : Except Fault Answer} (hreceived : e.received? = some received)
    (hlast : isPassing received = false ∨ more = 0) :
    Conclusion url request attempt more e (some (conclude url request.url received))
  | overflow (hpasses : Passes e) (hmore : 0 < more) (hattempt : 1024 ≤ attempt) :
    Conclusion url request attempt more e (some (.error (.fault .integerTooLarge)))
  | unanswered (hnone : e.answer = none) : Conclusion url request attempt more e none
  | interrupted (hpasses : Passes e) (hmore : 0 < more) (hattempt : attempt < 1024) :
    Conclusion url request attempt more e none

/-- The attempts of a query that begins with one of them and may make so many more. -/
structure Course (url : String) (request : Request) (attempt more : Nat)
    (before : List Exchange) (final : Exchange) (result : Option (Except Problem Reply)) :
    Prop where
  requests : ∀ e ∈ before ++ [final], e.request = request
  passes : ∀ e ∈ before, Passes e
  length_le : before.length ≤ more
  counted : before ≠ [] → attempt + before.length ≤ 1024
  concludes : Conclusion url request (attempt + before.length) (more - before.length) final result

/-- A query that is over after one attempt. -/
theorem Course.single {answer : Option Answer} {result : Option (Except Problem Reply)}
    (h : Conclusion url request attempt more ⟨request, answer⟩ result) :
    Course url request attempt more [] ⟨request, answer⟩ result where
  requests := by simp
  passes := nofun
  length_le := Nat.zero_le more
  counted := fun hne ↦ absurd rfl hne
  concludes := h

/-- A query that goes on after an attempt that failed in passing. -/
theorem Course.cons {answer : Answer} {before : List Exchange} {final : Exchange}
    {result : Option (Except Problem Reply)} (hattempt : attempt < 1024)
    (hpasses : isPassing (request.receive answer) = true)
    (h : Course url request (attempt + 1) more before final result) :
    Course url request attempt (more + 1) (⟨request, some answer⟩ :: before) final result where
  requests := List.forall_mem_cons.mpr ⟨rfl, h.requests⟩
  passes := List.forall_mem_cons.mpr ⟨⟨_, rfl, hpasses⟩, h.passes⟩
  length_le := Nat.succ_le_succ h.length_le
  counted := by
    intro _
    rcases before with _ | ⟨e, before⟩
    · exact hattempt
    · have hcounted := h.counted (List.cons_ne_nil e before)
      rw [List.length_cons] at hcounted
      rw [List.length_cons, List.length_cons]
      omega
  concludes := by
    rw [List.length_cons, Nat.add_sub_add_right, ← Nat.add_assoc, Nat.add_right_comm]
    exact h.concludes

theorem unfolds_attempts {es : List Exchange} {result : Option (Except Problem Reply)}
    (h : (attempts settings url request attempt more).Unfolds es result) :
    ∃ before final, es = before ++ [final] ∧
      Course url request attempt more before final result := by
  induction more generalizing attempt es with
  | zero =>
    cases h with
    | answered _ answer h =>
      cases h
      exact ⟨[], _, rfl, .single (.settled rfl (.inr rfl))⟩
    | unanswered => exact ⟨[], _, rfl, .single (.unanswered rfl)⟩
  | succ more ih =>
    cases h with
    | unanswered => exact ⟨[], _, rfl, .single (.unanswered rfl)⟩
    | answered _ answer h =>
      dsimp only at h
      rcases hpasses : isPassing (request.receive answer) with _ | _
      · rw [step_settled settings url request.url attempt hpasses] at h
        cases h
        exact ⟨[], _, rfl, .single (.settled rfl (.inl hpasses))⟩
      · by_cases hattempt : attempt < 1024
        · obtain ⟨n, seconds, hstep⟩ := step_again settings url request.url hpasses hattempt
          rw [hstep] at h
          cases h with
          | notice _ h =>
            cases h with
            | paused _ h =>
              obtain ⟨before, final, rfl, hcourse⟩ := ih h
              exact ⟨_ :: before, final, rfl, hcourse.cons hattempt hpasses⟩
            | interrupted =>
              refine ⟨[], _, rfl, .single (.interrupted ?_ (Nat.succ_pos more) hattempt)⟩
              exact ⟨_, rfl, hpasses⟩
        · rw [step_overflow settings url request.url hpasses (Nat.not_lt.mp hattempt)] at h
          cases h
          refine ⟨[], _, rfl, .single (.overflow ?_ (Nat.succ_pos more) (Nat.not_lt.mp hattempt))⟩
          exact ⟨_, rfl, hpasses⟩

section Requests

variable (settings) {parameter : Option (String × String)}

/-- A query whose request is made begins with that request. -/
theorem get_eq_ask (h : Request.make url parameter none = .ok request) :
    ∃ next, get settings url parameter = .ask request next := by
  unfold get
  rw [h]
  dsimp only
  generalize settings.probeMaxRetries = more
  cases more with
  | zero => exact ⟨_, rfl⟩
  | succ more => exact ⟨_, rfl⟩

/-- A query whose request cannot be made ends with the fault. -/
theorem get_eq_faulty {f : Fault} (h : Request.make url parameter none = .error f) :
    get settings url parameter = .faulty f := by
  unfold get
  rw [h]

end Requests

/-- A query whose request is made goes through its attempts. -/
theorem unfolds_get {parameter : Option (String × String)}
    (hmake : Request.make url parameter none = .ok request) {es : List Exchange}
    {result : Option (Except Problem Reply)}
    (h : (get settings url parameter).Unfolds es result) :
    ∃ before final, es = before ++ [final] ∧
      Course url request 0 settings.probeMaxRetries before final result := by
  unfold get at h
  rw [hmake] at h
  exact unfolds_attempts h

/-! ### What queries come to -/

/-- An attempt that failed in passing had a response of that kind, or a redirect, or none. -/
theorem Passes.response {e : Exchange} (h : Passes e) {r : Response} (hr : e.response? = some r) :
    isTransient r.status = true ∨ r.isRedirect = true := by
  obtain ⟨received, hreceived, hpasses⟩ := h
  have hanswer : e.answer = some (.response r) := by
    unfold Exchange.response? at hr
    split at hr
    · rename_i hanswer
      rw [hanswer, Option.some.inj hr]
    · cases hr
  unfold Exchange.received? at hreceived
  rw [hanswer, Option.map_some, Option.some.injEq] at hreceived
  by_cases hsame : e.request.receive (.response r) = .ok (.response r)
  · rw [← hreceived, hsame] at hpasses
    exact .inl hpasses
  · exact .inr (Request.isRedirect_of_receive hsame)

/-- The fault with which a query ends that may make so many attempts more: the target of the last
redirect cannot be completed, or the last attempt failed in passing and no pause can be computed
after so many of them. -/
def fault? (retries : Nat) (es : List Exchange) : Option Fault :=
  match es.getLast?.bind Exchange.received? with
  | some (.error f) => some f
  | some (.ok answer) =>
    if isPassing (.ok answer) ∧ 1024 < retries ∧ es.length = 1025 then some .integerTooLarge
    else none
  | none => none

namespace Course

variable {before : List Exchange} {final : Exchange} {result : Option (Except Problem Reply)}

theorem length_append_le (h : Course url request attempt more before final result) :
    (before ++ [final]).length ≤ more + 1 := by
  rw [List.length_append]
  exact Nat.succ_le_succ h.length_le

theorem request_final (h : Course url request attempt more before final result) :
    final.request = request :=
  h.requests final (List.mem_append_right before (List.mem_singleton_self final))

/-- A query that is settled replies with its last response. -/
theorem reply {reply : Reply}
    (h : Course url request attempt more before final (some (.ok reply))) :
    reply.url = request.url ∧ final.received? = some (.ok (.response reply.response)) ∧
      finalResponse? (before ++ [final]) = some reply.response := by
  have hfinal := h.request_final
  generalize hresult : some (Except.ok reply) = result at h
  cases h.concludes with
  | unanswered => cases hresult
  | interrupted => cases hresult
  | overflow => cases hresult
  | @settled received hreceived =>
    rcases received with f | r | reason
    · cases hresult
    · obtain rfl : reply = ⟨request.url, r⟩ := by
        cases hresult
        rfl
      obtain ⟨answer, hanswer, hr⟩ := Option.map_eq_some_iff.mp hreceived
      refine ⟨rfl, hreceived, finalResponse?_append_singleton ?_⟩
      rw [Exchange.response?, hanswer, Request.receive_response hr]
    · cases hresult

/-- A query that fails had no response but failures in passing and redirects. -/
theorem passing_of_failure {f : Failure}
    (h : Course url request attempt more before final (some (.error (.failure f)))) {r : Response}
    (hr : finalResponse? (before ++ [final]) = some r) :
    isTransient r.status = true ∨ r.isRedirect = true := by
  have hfinal : Passes final := by
    generalize hresult : some (Except.error (Problem.failure f)) = result at h
    cases h.concludes with
    | unanswered => cases hresult
    | interrupted => cases hresult
    | overflow => cases hresult
    | @settled received hreceived =>
      rcases received with f | r | reason
      · cases hresult
      · cases hresult
      · exact ⟨_, hreceived, rfl⟩
  obtain ⟨e, he, hresponse⟩ := exists_of_finalResponse? hr
  rcases List.mem_append.mp he with he | he
  · exact (h.passes e he).response hresponse
  · rw [List.mem_singleton.mp he] at hresponse
    exact hfinal.response hresponse

/-- A query ends with a fault exactly if its exchanges have one. -/
theorem fault_iff (h : Course url request 0 more before final result) {f : Fault} :
    result = some (.error (.fault f)) ↔ fault? more (before ++ [final]) = some f := by
  have hcounted : before.length ≤ 1024 := by
    by_cases hbefore : before = []
    · rw [hbefore]
      exact Nat.zero_le _
    · simpa using h.counted hbefore
  have hlength : (before ++ [final]).length = before.length + 1 := List.length_append
  unfold fault?
  rw [List.getLast?_concat, Option.bind_some, hlength]
  cases h.concludes with
  | unanswered hnone =>
    rw [Exchange.received?, hnone]
    simp
  | interrupted hpasses hmore hattempt =>
    obtain ⟨received, hreceived, hpassing⟩ := hpasses
    rcases received with f' | received
    · cases hpassing
    · have hfew : ¬(isPassing (.ok received) = true ∧ 1024 < more ∧ before.length + 1 = 1025) := by
        rintro ⟨-, -, hmany⟩
        omega
      rw [hreceived]
      dsimp only
      rw [if_neg hfew]
      simp
  | overflow hpasses hmore hattempt =>
    obtain ⟨received, hreceived, hpassing⟩ := hpasses
    rcases received with f' | received
    · cases hpassing
    · rw [hreceived]
      dsimp only
      rw [if_pos ⟨hpassing, by omega, by omega⟩]
      simp [eq_comm]
  | @settled received hreceived hend =>
    rw [hreceived]
    rcases received with f' | received
    · simp [conclude, eq_comm]
    · have hlast : ¬(isPassing (.ok received) = true ∧ 1024 < more ∧ before.length + 1 = 1025) := by
        rintro ⟨hpassing, hmore, hmany⟩
        rcases hend with hend | hend
        · rw [hpassing] at hend
          cases hend
        · omega
      dsimp only
      rw [if_neg hlast]
      rcases received with r | reason <;> simp [conclude]

end Course

end Query

end Admission
