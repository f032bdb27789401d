import Admission.Proofs.Probe.Address

/-!
# How questions go

A question is one query, or two if it is about an organization and the first query is settled by a
redirect that has a target; `Course` lists the ways in which it can go, whatever the provider
answers (`course_of_unfolds`). The two queries can be told apart by their requests, of which only
the first one carries the access token (`queries_followed`).
-/

set_option autoImplicit false
set_option relaxedAutoImplicit false

namespace Admission

/-- A query for a request goes through some exchanges. -/
def Query.Goes (settings : ProviderSettings) (request : Request) (es : List Exchange)
    (result : Option (Except Problem Query.Reply)) : Prop :=
  ∃ url before final, es = before ++ [final] ∧
    Query.Course url request 0 settings.probeMaxRetries before final result

namespace Probe

/-! ### What responses say -/

/-- A response confirms that a user belongs to a group. -/
def Confirms : Group → Response → Prop
  | .organization _, r => r.status = 200 ∨ r.status = 204
  | .team _ _, r =>
    r.status = 200 ∧ ∃ m, TeamMembership.read? r.body = some m ∧ m.state = some "active"

/-- A response denies that a user belongs to a group. -/
def Denies : Group → Response → Prop
  | .organization _, r => r.status = 404
  | .team _ _, r =>
    r.status = 404 ∨
      r.status = 200 ∧ ∃ m, TeamMembership.read? r.body = some m ∧ m.state ≠ some "active"

theorem isRedirect_iff {r : Response} : r.isRedirect = true ↔ r.status = 301 ∨ r.status = 302 ∨
    r.status = 303 ∨ r.status = 307 ∨ r.status = 308 := by
  simp [Response.isRedirect]

/-- A text, or else null or nothing, under a name. -/
def HasText (fields : Fields) (key : String) : Option String → Prop
  | some s => fields.get? key = some (.str s)
  | none => fields.get? key = none ∨ fields.get? key = some .null

theorem textOrNull?_eq_some_iff {fields : Fields} {key : String} {s? : Option String} :
    TeamMembership.textOrNull? fields key = some s? ↔ HasText fields key s? := by
  unfold TeamMembership.textOrNull?
  rcases hget : fields.get? key with _ | v
  · cases s? <;> simp [HasText, hget]
  · cases v <;> cases s? <;> simp [HasText, hget]

/-- The document of a team is an object in UTF-8 in which state and role are texts, null or
missing. -/
theorem read?_eq_some_iff {octets : List UInt8} {m : TeamMembership} :
    TeamMembership.read? octets = some m ↔ ∃ cs fields, Text.decodeUtf8 octets = some cs ∧
      Json.readChars cs = .ok (.map fields) ∧ HasText fields "state" m.state ∧
        HasText fields "role" m.role := by
  simp only [← textOrNull?_eq_some_iff]
  obtain ⟨state, role⟩ := m
  constructor
  · intro h
    obtain ⟨cs, hcs, h⟩ := Option.bind_eq_some_iff.mp h
    split at h
    · rename_i fields hread
      obtain ⟨state', hstate, h⟩ := Option.bind_eq_some_iff.mp h
      obtain ⟨role', hrole, h⟩ := Option.bind_eq_some_iff.mp h
      cases h
      exact ⟨cs, fields, hcs, hread, hstate, hrole⟩
    · cases h
  · rintro ⟨cs, fields, hcs, hread, hstate, hrole⟩
    unfold TeamMembership.read?
    rw [hcs, Option.bind_eq_bind, Option.bind_some, hread]
    dsimp only
    rw [hstate, hrole]
    rfl

/-- The result of a question is what the response that decides about it says, and a failure if there
is none or it says nothing. -/
def Reads (group : Group) (response? : Option Response) : Except Problem Bool → Prop
  | .ok true => ∃ r, response? = some r ∧ Confirms group r
  | .ok false => ∃ r, response? = some r ∧ Denies group r
  | .error (.failure _) => ∀ r, response? = some r → ¬Confirms group r ∧ ¬Denies group r
  | .error (.fault _) => False

/-- The target of a redirect, if it has one that is not empty. -/
def redirectTarget? (r : Response) : Option String :=
  if r.isRedirect then r.location?.filter fun target ↦ !target.isEmpty else none

/-- Where the question goes on after the first query, if it does. -/
def followed? : Group → Response → Option String
  | .organization _, r => redirectTarget? r
  | .team _ _, _ => none

/-- A response that is no redirect with a target is not followed. -/
theorem followed?_eq_none {group : Group} {r : Response}
    (h : r.isRedirect = true → ∀ target, r.location? = some target → target = "") :
    followed? group r = none := by
  cases group with
  | team org name => rfl
  | organization org =>
    show redirectTarget? r = none
    unfold redirectTarget?
    split
    · rename_i hredirect
      rw [Option.filter_eq_none_iff]
      intro target htarget
      simp [h hredirect target htarget]
    · rfl

/-- A response that fails in passing or redirects says nothing about a group. -/
theorem says_nothing {group : Group} {r : Response}
    (h : isTransient r.status = true ∨ r.isRedirect = true) :
    ¬Confirms group r ∧ ¬Denies group r := by
  have hstatus : r.status ≠ 200 ∧ r.status ≠ 204 ∧ r.status ≠ 404 := by
    rcases h with h | h
    · simp only [isTransient, Bool.or_eq_true, decide_eq_true_eq] at h
      omega
    · simp only [Response.isRedirect, List.contains_eq_mem, List.mem_cons, List.not_mem_nil,
        or_false, decide_eq_true_eq] at h
      omega
  obtain ⟨h200, h204, h404⟩ := hstatus
  cases group with
  | organization org => exact ⟨not_or.mpr ⟨h200, h204⟩, h404⟩
  | team org name => exact ⟨fun h ↦ h200 h.1, not_or.mpr ⟨h404, fun h ↦ h200 h.1⟩⟩

/-- What a query comes to is what the question comes to if it is the last one. -/
def Concludes (group : Group) :
    Option (Except Problem Query.Reply) → Option (Except Problem Bool) → Prop
  | none, result => result = none
  | some (.error problem), result => result = some (.error problem)
  | some (.ok reply), result => ∃ x, result = some x ∧ Reads group (some reply.response) x

variable {settings : ProviderSettings} {user : User} {token : Tokens} {group : Group}
  {es : List Exchange} {result : Option (Except Problem Bool)}

theorem isConfirmation_iff {org : String} {r : Response} :
    r.isConfirmation = true ↔ Confirms (.organization org) r := by
  simp [Response.isConfirmation, Confirms]

theorem isActive_iff {m : TeamMembership} : m.isActive = true ↔ m.state = some "active" := by
  simp [TeamMembership.isActive]

theorem unfolds_readOrganization {username org url : String} {r : Response}
    (h : (readOrganization username org url r).Unfolds es result) :
    es = [] ∧ ∃ x, result = some x ∧ Reads (.organization org) (some r) x := by
  unfold readOrganization at h
  split at h
  · rename_i hconfirms
    obtain ⟨rfl, rfl⟩ := Process.unfolds_done_iff.mp (Process.unfolds_notice_iff.mp h)
    exact ⟨rfl, _, rfl, r, rfl, isConfirmation_iff.mp hconfirms⟩
  · rename_i hconfirms
    split at h
    · rename_i hdenies
      obtain ⟨rfl, rfl⟩ := Process.unfolds_done_iff.mp (Process.unfolds_notice_iff.mp h)
      exact ⟨rfl, _, rfl, r, rfl, hdenies⟩
    · rename_i hdenies
      obtain ⟨rfl, rfl⟩ := Process.unfolds_done_iff.mp (Process.unfolds_notice_iff.mp h)
      refine ⟨rfl, _, rfl, ?_⟩
      rintro r ⟨⟩
      exact ⟨mt isConfirmation_iff.mpr hconfirms, hdenies⟩

theorem unfolds_readTeam {username org name url : String} {r : Response}
    (h : (readTeam username org name url r).Unfolds es result) :
    es = [] ∧ ∃ x, result = some x ∧ Reads (.team org name) (some r) x := by
  unfold readTeam at h
  split at h
  · rename_i hstatus
    rcases hread : TeamMembership.read? r.body with _ | m
    · rw [hread] at h
      obtain ⟨rfl, rfl⟩ := Process.unfolds_done_iff.mp h
      refine ⟨rfl, _, rfl, ?_⟩
      rintro r ⟨⟩
      constructor
      · rintro ⟨-, m, hm, -⟩
        rw [hread] at hm
        cases hm
      · rintro (hdenies | ⟨-, m, hm, -⟩)
        · omega
        · rw [hread] at hm
          cases hm
    · rw [hread] at h
      obtain ⟨rfl, rfl⟩ := Process.unfolds_done_iff.mp (Process.unfolds_notice_iff.mp h)
      refine ⟨rfl, _, rfl, ?_⟩
      rcases hactive : m.isActive with _ | _
      · have hstate := mt isActive_iff.mpr (Bool.eq_false_iff.mp hactive)
        exact ⟨r, rfl, .inr ⟨hstatus, m, hread, hstate⟩⟩
      · exact ⟨r, rfl, hstatus, m, hread, isActive_iff.mp hactive⟩
  · rename_i hstatus
    split at h
    · rename_i hdenies
      obtain ⟨rfl, rfl⟩ := Process.unfolds_done_iff.mp h
      exact ⟨rfl, _, rfl, r, rfl, .inl hdenies⟩
    · rename_i hdenies
      obtain ⟨rfl, rfl⟩ := Process.unfolds_done_iff.mp (Process.unfolds_notice_iff.mp h)
      refine ⟨rfl, _, rfl, ?_⟩
      rintro r ⟨⟩
      exact ⟨fun h ↦ hstatus h.1, not_or.mpr ⟨hdenies, fun h ↦ hstatus h.1⟩⟩

/-! ### The ways of a question -/

/-- The first request of a question, if it can be made. -/
def firstRequest (settings : ProviderSettings) (user : User) (token : Tokens) (group : Group) :
    Except Fault Request := do
  let url ← questionAddress settings user.username group
  Request.make url (some (tokenParameter, token.access)) none

theorem firstRequest_of_address {url : String}
    (h : questionAddress settings user.username group = .ok url) :
    firstRequest settings user token group =
      Request.make url (some (tokenParameter, token.access)) none := by
  rw [firstRequest, h]
  rfl

/-- The ways in which a question can go: its first request cannot be made, or the first query is the
last one, or it is settled by a redirect. Then the public address or the request for it cannot be
made, or a second query is the last one. -/
inductive Course (settings : ProviderSettings) (user : User) (token : Tokens) (group : Group) :
    List Exchange → Option (Except Problem Bool) → Prop
  | unsent {f : Fault} (hfault : firstRequest settings user token group = .error f) :
    Course settings user token group [] (some (.error (.fault f)))
  | single {request : Request} {es : List Exchange} {result : Option (Except Problem Query.Reply)}
    {answer : Option (Except Problem Bool)}
    (hrequest : firstRequest settings user token group = .ok request)
    (hquery : Query.Goes settings request es result) (hends : Concludes group result answer)
    (hstays : ∀ reply, result = some (.ok reply) → followed? group reply.response = none) :
    Course settings user token group es answer
  | misled {request : Request} {es : List Exchange} {reply : Query.Reply} {target : String}
    {d : Url.Defect} (hrequest : firstRequest settings user token group = .ok request)
    (hquery : Query.Goes settings request es (some (.ok reply)))
    (htarget : followed? group reply.response = some target)
    (hfault : publicAddress request.url target = .error d) :
    Course settings user token group es (some (.error (.fault (.address d))))
  | unsentNext {request : Request} {es : List Exchange} {reply : Query.Reply} {target : String}
    {u : Url} {f : Fault} (hrequest : firstRequest settings user token group = .ok request)
    (hquery : Query.Goes settings request es (some (.ok reply)))
    (htarget : followed? group reply.response = some target)
    (hpublic : publicAddress request.url target = .ok u)
    (hfault : Request.make u.text none none = .error f) :
    Course settings user token group es (some (.error (.fault f)))
  | followed {request next : Request} {es more : List Exchange} {reply : Query.Reply}
    {target : String} {u : Url} {result : Option (Except Problem Query.Reply)}
    {answer : Option (Except Problem Bool)}
    (hrequest : firstRequest settings user token group = .ok request)
    (hquery : Query.Goes settings request es (some (.ok reply)))
    (htarget : followed? group reply.response = some target)
    (hpublic : publicAddress request.url target = .ok u)
    (hnext : Request.make u.text none none = .ok next)
    (hmore : Query.Goes settings next more result) (hends : Concludes group result answer) :
    Course settings user token group (es ++ more) answer

theorem goes_of_unfolds {url : String} {parameter : Option (String × String)} {request : Request}
    (hmake : Request.make url parameter none = .ok request)
    {answer : Option (Except Problem Query.Reply)}
    (h : (Query.get settings url parameter).Unfolds es answer) :
    Query.Goes settings request es answer := by
  obtain ⟨before, final, hes, hcourse⟩ := Query.unfolds_get hmake h
  exact ⟨url, before, final, hes, hcourse⟩

section FollowUp

variable {request : Request} {reply : Query.Reply} {url : String} {more : List Exchange}

/-- A question ends with the first query if its reply is read. -/
theorem course_of_reads (hrequest : firstRequest settings user token group = .ok request)
    (hquery : Query.Goes settings request es (some (.ok reply))) {x : Except Problem Bool}
    (hx : Reads group (some reply.response) x) (hstays : followed? group reply.response = none) :
    Course settings user token group (es ++ []) (some x) := by
  rw [List.append_nil]
  refine .single hrequest hquery ⟨x, rfl, hx⟩ ?_
  rintro _ ⟨⟩
  exact hstays

/-- A redirect without a target is a failure. -/
theorem course_of_no_target {org : String} {f : Failure}
    (hrequest : firstRequest settings user token (.organization org) = .ok request)
    (hquery : Query.Goes settings request es (some (.ok reply)))
    (hredirect : reply.response.isRedirect = true)
    (hnone : ∀ target, reply.response.location? = some target → target = "") :
    Course settings user token (.organization org) (es ++ []) (some (.error (.failure f))) := by
  refine course_of_reads hrequest hquery ?_ (followed?_eq_none fun _ ↦ hnone)
  rintro _ ⟨⟩
  exact says_nothing (.inr hredirect)

theorem course_of_askPublicly {org : String}
    (hrequest : firstRequest settings user token (.organization org) = .ok request)
    (hquery : Query.Goes settings request es (some (.ok reply))) (hurl : reply.url = request.url)
    (hredirect : reply.response.isRedirect = true)
    (h : (askPublicly settings user.username org url reply).Unfolds more result) :
    Course settings user token (.organization org) (es ++ more) result := by
  unfold askPublicly at h
  rcases hlocation : reply.response.location? with _ | target
  · rw [hlocation] at h
    obtain ⟨rfl, rfl⟩ := Process.unfolds_done_iff.mp h
    refine course_of_no_target hrequest hquery hredirect fun target htarget ↦ ?_
    rw [hlocation] at htarget
    cases htarget
  · rw [hlocation] at h
    dsimp only at h
    by_cases hempty : target.isEmpty = true
    · rw [if_pos hempty] at h
      obtain ⟨rfl, rfl⟩ := Process.unfolds_done_iff.mp h
      refine course_of_no_target hrequest hquery hredirect fun target' htarget ↦ ?_
      rw [hlocation] at htarget
      cases htarget
      simpa using hempty
    · rw [if_neg hempty, hurl] at h
      have htarget : followed? (.organization org) reply.response = some target := by
        show redirectTarget? reply.response = some target
        simp [redirectTarget?, hredirect, hlocation, hempty]
      rcases hpublic : publicAddress request.url target with d | u
      · rw [hpublic] at h
        obtain ⟨rfl, rfl⟩ := Process.unfolds_done_iff.mp h
        rw [List.append_nil]
        exact .misled hrequest hquery htarget hpublic
      · rw [hpublic] at h
        dsimp only at h
        rw [Process.unfolds_notice_iff] at h
        rcases hmake : Request.make u.text none none with f | next
        · rw [Query.get_eq_faulty settings hmake] at h
          obtain ⟨rfl, rfl⟩ := Process.unfolds_done_iff.mp h
          rw [List.append_nil]
          exact .unsentNext hrequest hquery htarget hpublic hmake
        · rcases h.andThen with ⟨reply', second, rest, rfl, hmore, hread⟩ |
            ⟨problem, rfl, hmore⟩ | ⟨rfl, hmore⟩
          · obtain ⟨rfl, x, rfl, hx⟩ := unfolds_readOrganization hread
            rw [List.append_nil]
            exact .followed hrequest hquery htarget hpublic hmake (goes_of_unfolds hmake hmore)
              ⟨x, rfl, hx⟩
          · exact .followed hrequest hquery htarget hpublic hmake (goes_of_unfolds hmake hmore) rfl
          · exact .followed hrequest hquery htarget hpublic hmake (goes_of_unfolds hmake hmore) rfl

theorem course_of_followUp (hrequest : firstRequest settings user token group = .ok request)
    (hquery : Query.Goes settings request es (some (.ok reply))) (hurl : reply.url = request.url)
    (h : (followUp settings user.username url group reply).Unfolds more result) :
    Course settings user token group (es ++ more) result := by
  cases group with
  | team org name =>
    obtain ⟨rfl, x, rfl, hx⟩ := unfolds_readTeam h
    exact course_of_reads hrequest hquery hx rfl
  | organization org =>
    dsimp only [followUp] at h
    split at h
    · rename_i hredirect
      exact course_of_askPublicly hrequest hquery hurl hredirect h
    · rename_i hredirect
      obtain ⟨rfl, x, rfl, hx⟩ := unfolds_readOrganization h
      exact course_of_reads hrequest hquery hx (followed?_eq_none fun h ↦ absurd h hredirect)

end FollowUp

/-- Whatever is answered, a question goes one of the ways. -/
theorem course_of_unfolds (h : (ask settings user token group).Unfolds es result) :
    Course settings user token group es result := by
  rw [ask_eq] at h
  rcases haddress : questionAddress settings user.username group with f | url
  · rw [haddress] at h
    obtain ⟨rfl, rfl⟩ := Process.unfolds_done_iff.mp h
    exact .unsent (by rw [firstRequest, haddress]; rfl)
  · rw [haddress] at h
    have hfirst := @firstRequest_of_address settings user token group url haddress
    rcases hmake : Request.make url (some (tokenParameter, token.access)) none with f | request
    · dsimp only at h
      rw [Query.get_eq_faulty settings hmake] at h
      obtain ⟨rfl, rfl⟩ := Process.unfolds_done_iff.mp h
      exact .unsent (hfirst.trans hmake)
    · have hrequest := hfirst.trans hmake
      rcases h.andThen with ⟨reply, first, rest, rfl, hquery, hmore⟩ | ⟨problem, rfl, hquery⟩ |
        ⟨rfl, hquery⟩
      · obtain ⟨before, final, rfl, hcourse⟩ := Query.unfolds_get hmake hquery
        exact course_of_followUp hrequest (goes_of_unfolds hmake hquery) hcourse.reply.1 hmore
      · exact .single hrequest (goes_of_unfolds hmake hquery) rfl nofun
      · exact .single hrequest (goes_of_unfolds hmake hquery) rfl nofun

/-! ### The two queries of a question -/

/-- The exchanges with the request that came first. -/
def firstQuery (es : List Exchange) : List Exchange :=
  es.takeWhile fun e ↦ some e.request = es.head?.map Exchange.request

/-- The exchanges from the first one with another request on. -/
def nextQuery (es : List Exchange) : List Exchange :=
  es.dropWhile fun e ↦ some e.request = es.head?.map Exchange.request

theorem queries_append {request : Request} {more : List Exchange} (hne : es ≠ [])
    (hes : ∀ e ∈ es, e.request = request) (hmore : ∀ e ∈ more, e.request ≠ request) :
    firstQuery (es ++ more) = es ∧ nextQuery (es ++ more) = more := by
  have hhead : (es ++ more).head?.map Exchange.request = some request := by
    obtain ⟨e, rest, rfl⟩ := List.exists_cons_of_ne_nil hne
    exact congrArg some (hes e List.mem_cons_self)
  have hkeeps : ∀ e ∈ es, decide (some e.request = some request) = true := fun e he ↦ by
    rw [hes e he, decide_eq_true rfl]
  unfold firstQuery nextQuery
  rw [hhead, List.takeWhile_append_of_pos hkeeps, List.dropWhile_append_of_pos hkeeps]
  rcases more with _ | ⟨e, more⟩
  · exact ⟨List.append_nil es, rfl⟩
  · have hother : e.request ≠ request := hmore e List.mem_cons_self
    simp [hother]

theorem query_firstRequest {request : Request}
    (h : firstRequest settings user token group = .ok request) :
    request.url.query = some (tokenQuery token.access) := by
  obtain ⟨url, -, hmake⟩ := bind_eq_ok h
  obtain ⟨fixed, -, hfixed⟩ := Request.make_withToken url none
  rcases hfixed token.access with ⟨f, hfails, -⟩ | hmade
  · rw [hmake] at hfails
    cases hfails
  · rw [hmake] at hmade
    rcases fixed with f | r
    · cases hmade
    · cases hmade
      rfl

/-- The requests of the two queries differ, as only the first one carries the access token. -/
theorem ne_firstRequest {request next : Request} {target : String} {u : Url}
    (hrequest : firstRequest settings user token group = .ok request)
    (hpublic : publicAddress request.url target = .ok u)
    (hnext : Request.make u.text none none = .ok next) : next ≠ request := by
  rintro rfl
  have hlacks := lacksToken_of_make hpublic hnext
  unfold Url.LacksToken at hlacks
  rw [query_firstRequest hrequest, Option.getD_some, tokenQuery,
    Url.Form.decode_encodePair] at hlacks
  exact hlacks _ (List.mem_singleton_self _) rfl

theorem queries_single {request : Request} {answer : Option (Except Problem Query.Reply)}
    (hquery : Query.Goes settings request es answer) :
    firstQuery es = es ∧ nextQuery es = [] := by
  obtain ⟨url, before, final, rfl, hcourse⟩ := hquery
  have h := queries_append (List.append_ne_nil_of_right_ne_nil before (List.cons_ne_nil final []))
    hcourse.requests (List.forall_mem_nil _)
  rwa [List.append_nil] at h

theorem queries_followed {request next : Request} {more : List Exchange} {target : String} {u : Url}
    {answer answer' : Option (Except Problem Query.Reply)}
    (hrequest : firstRequest settings user token group = .ok request)
    (hquery : Query.Goes settings request es answer)
    (hpublic : publicAddress request.url target = .ok u)
    (hnext : Request.make u.text none none = .ok next)
    (hmore : Query.Goes settings next more answer') :
    firstQuery (es ++ more) = es ∧ nextQuery (es ++ more) = more := by
  obtain ⟨url, before, final, rfl, hcourse⟩ := hquery
  obtain ⟨url', before', final', rfl, hcourse'⟩ := hmore
  refine queries_append (List.append_ne_nil_of_right_ne_nil before (List.cons_ne_nil final []))
    hcourse.requests fun e he ↦ ?_
  rw [hcourse'.requests e he]
  exact ne_firstRequest hrequest hpublic hnext

end Probe

end Admission
