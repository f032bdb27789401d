import Admission.Probe.Single
import Admission.Proofs.Pool.Lockstep
import Admission.Proofs.Probe.Answers
import Admission.Proofs.Probe.Token

/-!
# Probes with either of two access tokens

A probe does the same with either of two access tokens, apart from the token in its first query: the
processes are alike (`ask_alike`), hence the single probe (`probeEntry_alike`) and the fan-out
(`fanOut_alike`), unless one of them meets an address that is too long. What is asked for publicly
has no pair by the token's name (`askPublicly_sends`).
-/

set_option autoImplicit false
set_option relaxedAutoImplicit false

namespace Admission

/-- The problem is that an address is too long. -/
def Problem.isTooLong : Problem → Bool
  | fault f => f.isTooLong
  | failure _ => false

/-- Processes that do the same with either of two access tokens. -/
abbrev Process.AlikeBut {α : Type} (token₁ token₂ : String)
    (related : Except Problem α → Except Problem α → Prop) :
    Process (Except Problem α) → Process (Except Problem α) → Prop :=
  Alike (Request.SameBut token₁ token₂) related (FailsBy Problem.isTooLong)

/-- What follows the answer to a request is alike with either of two access tokens if it is alike
for whatever is received, and passes faults on. -/
theorem Process.alike_ask {α : Type} {token₁ token₂ : String}
    {related : Except Problem α → Except Problem α → Prop} {request : Request}
    (hrequest : request.url.Normal)
    {next₁ next₂ : Except Fault Answer → Process (Except Problem α)}
    (hfault₁ : ∀ f, next₁ (.error f) = .faulty f) (hfault₂ : ∀ f, next₂ (.error f) = .faulty f)
    (hnext : ∀ received, AlikeBut token₁ token₂ related (next₁ received) (next₂ received)) :
    AlikeBut token₁ token₂ related
      (.ask (request.withToken token₁) fun answer ↦
        next₁ ((request.withToken token₁).receive answer))
      (.ask (request.withToken token₂) fun answer ↦
        next₂ ((request.withToken token₂).receive answer)) := by
  refine .ask (.carrying request hrequest) fun answer ↦ ?_
  obtain ⟨fixed, hfixed⟩ := Request.receive_withToken hrequest answer
  rcases hfixed token₁ with ⟨f, hf, hlong⟩ | heq₁
  · rw [hf, hfault₁]
    exact .lostLeft ⟨.fault f, rfl, hlong⟩ _
  · rcases hfixed token₂ with ⟨f, hf, hlong⟩ | heq₂
    · rw [hf, hfault₂]
      exact .lostRight ⟨.fault f, rfl, hlong⟩ _
    · rw [heq₁, heq₂]
      exact hnext fixed

/-- What is done with a request is alike with either of two access tokens if it is alike for every
request into which they are put, and passes faults on. -/
theorem Process.alike_make {α : Type} {token₁ token₂ : String}
    {related : Except Problem α → Except Problem α → Prop}
    {next₁ next₂ : Except Fault Request → Process (Except Problem α)} (address : String)
    (authorization : Option String)
    (hrelated : ∀ problem, related (.error problem) (.error problem))
    (hfault₁ : ∀ f, next₁ (.error f) = .faulty f) (hfault₂ : ∀ f, next₂ (.error f) = .faulty f)
    (hnext : ∀ request : Request, request.url.Normal →
      AlikeBut token₁ token₂ related (next₁ (.ok (request.withToken token₁)))
        (next₂ (.ok (request.withToken token₂)))) :
    AlikeBut token₁ token₂ related
      (next₁ (Request.make address (some (Probe.tokenParameter, token₁)) authorization))
      (next₂ (Request.make address (some (Probe.tokenParameter, token₂)) authorization)) := by
  obtain ⟨fixed, hnormal, hfixed⟩ := Request.make_withToken address authorization
  rcases hfixed token₁ with ⟨f, hf, hlong⟩ | heq₁
  · rw [hf, hfault₁]
    exact .lostLeft ⟨.fault f, rfl, hlong⟩ _
  · rcases hfixed token₂ with ⟨f, hf, hlong⟩ | heq₂
    · rw [hf, hfault₂]
      exact .lostRight ⟨.fault f, rfl, hlong⟩ _
    · rw [heq₁, heq₂]
      rcases fixed with f | request
      · show AlikeBut token₁ token₂ related (next₁ (.error f)) (next₂ (.error f))
        rw [hfault₁, hfault₂]
        exact .done (hrelated _)
      · exact hnext request (hnormal request rfl)

namespace Query

variable {token₁ token₂ : String}

/-- The same response to the same query with either of two access tokens. -/
inductive Reply.Alike (token₁ token₂ : String) : Reply → Reply → Prop
  | mk {asked : Url} (hasked : asked.Normal) (response : Response) :
    Alike token₁ token₂ ⟨asked.withToken token₁, response⟩ ⟨asked.withToken token₂, response⟩

/-- What an attempt that is not the last one goes on with. -/
def proceed (settings : ProviderSettings) (url : String) (request : Request) (attempt more : Nat)
    (received : Except Fault Answer) : Process (Except Problem Reply) :=
  match step settings url request.url attempt received with
  | .settled result => .done result
  | .again n seconds =>
    .notice n (.pause seconds (attempts settings url request (attempt + 1) more))

theorem proceed_again {settings : ProviderSettings} {url : String} {request : Request}
    {attempt more : Nat} {received : Except Fault Answer} {pause : Except Fault Binary64}
    {note : Binary64 → Notice}
    (h : step settings url request.url attempt received = again pause note) :
    proceed settings url request attempt more received =
      pause.rec (fun f ↦ .faulty f) fun seconds ↦ .notice (note seconds)
        (.pause seconds (attempts settings url request (attempt + 1) more)) := by
  unfold proceed
  rw [h]
  rcases pause with f | seconds <;> rfl

/-- The attempts of a query are alike with either token. -/
theorem attempts_alike (settings : ProviderSettings) (url : String) {request : Request}
    (hrequest : request.url.Normal) (attempt more : Nat) :
    Process.AlikeBut token₁ token₂ (Process.Agree (Reply.Alike token₁ token₂))
      (attempts settings url (request.withToken token₁) attempt more)
      (attempts settings url (request.withToken token₂) attempt more) := by
  induction more generalizing attempt with
  | zero =>
    refine @Process.alike_ask _ token₁ token₂ _ request hrequest
      (fun received ↦ .done (conclude url (request.url.withToken token₁) received))
      (fun received ↦ .done (conclude url (request.url.withToken token₂) received))
      (fun _ ↦ rfl) (fun _ ↦ rfl) fun received ↦ .done ?_
    rcases received with f | ⟨r⟩ | reason
    · exact .error _
    · exact .ok (.mk hrequest r)
    · exact .error _
  | succ more ih =>
    have hagain (pause : Except Fault Binary64) (note : Binary64 → Notice)
        (received : Except Fault Answer)
        (h : ∀ token, step settings url (request.url.withToken token) attempt received =
          again pause note) :
        Process.AlikeBut token₁ token₂ (Process.Agree (Reply.Alike token₁ token₂))
          (proceed settings url (request.withToken token₁) attempt more received)
          (proceed settings url (request.withToken token₂) attempt more received) := by
      rw [proceed_again (h token₁), proceed_again (h token₂)]
      rcases pause with f | seconds
      · exact .done (.error _)
      · exact .notice _ (.pause _ (ih (attempt + 1)))
    refine @Process.alike_ask _ token₁ token₂ _ request hrequest
      (proceed settings url (request.withToken token₁) attempt more)
      (proceed settings url (request.withToken token₂) attempt more)
      (fun _ ↦ rfl) (fun _ ↦ rfl) fun received ↦ ?_
    rcases received with f | ⟨r⟩ | reason
    · exact .done (.error _)
    · by_cases htransient : isTransient r.status = true
      · exact hagain _ _ _ fun token ↦ if_pos htransient
      · have hsettled (token : String) :
            proceed settings url (request.withToken token) attempt more (.ok (.response r)) =
              .done (.ok ⟨request.url.withToken token, r⟩) := by
          simp only [proceed, step, if_neg htransient]
          rfl
        rw [hsettled, hsettled]
        exact .done (.ok (.mk hrequest r))
    · exact hagain _ _ _ fun token ↦ rfl

/-- What a query does with the request that was made for it. -/
def send (settings : ProviderSettings) (url : String) (made : Except Fault Request) :
    Process (Except Problem Reply) :=
  match made with
  | .error f => .faulty f
  | .ok request => attempts settings url request 0 settings.probeMaxRetries

/-- A query is alike with either token. -/
theorem get_alike (settings : ProviderSettings) (url : String) :
    Process.AlikeBut token₁ token₂ (Process.Agree (Reply.Alike token₁ token₂))
      (get settings url (some (Probe.tokenParameter, token₁)))
      (get settings url (some (Probe.tokenParameter, token₂))) :=
  @Process.alike_make _ token₁ token₂ _ (send settings url) (send settings url) url none .error
    (fun _ ↦ rfl) (fun _ ↦ rfl) fun _ hrequest ↦
      attempts_alike settings url hrequest 0 settings.probeMaxRetries

end Query

namespace Probe

variable {token₁ token₂ : String}

/-! ### The second query -/

/-- Whatever a redirect's target is, no request for the public members has a pair by the name of the
access token. -/
theorem askPublicly_sends (settings : ProviderSettings) (username org url : String)
    (reply : Query.Reply) :
    (askPublicly settings username org url reply).Sends fun r ↦ r.url.LacksToken :=
  ⟨Query.waits settings, askPublicly_obeys
    (fun _ _ _ haddress hmade ↦ lacksToken_of_make haddress hmade) fun _ _ _ _ _ _ _ ↦ trivial⟩

/-- The second query is the same with either token. -/
theorem askPublicly_alike (settings : ProviderSettings) (username org url : String)
    {reply₁ reply₂ : Query.Reply} (hreply : Query.Reply.Alike token₁ token₂ reply₁ reply₂) :
    Process.AlikeBut token₁ token₂ Eq (askPublicly settings username org url reply₁)
      (askPublicly settings username org url reply₂) := by
  cases hreply with
  | @mk asked hasked response =>
    have hsame (h : ∀ target, response.location? = some target → target.isEmpty = false →
        publicAddress (asked.withToken token₁) target =
          publicAddress (asked.withToken token₂) target) :
        Process.AlikeBut token₁ token₂ Eq
          (askPublicly settings username org url ⟨asked.withToken token₁, response⟩)
          (askPublicly settings username org url ⟨asked.withToken token₂, response⟩) := by
      have heq : askPublicly settings username org url ⟨asked.withToken token₁, response⟩ =
          askPublicly settings username org url ⟨asked.withToken token₂, response⟩ := by
        unfold askPublicly
        dsimp only
        split
        · rfl
        · rename_i target hlocation
          split
          · rfl
          · rename_i hempty
            rw [h target hlocation (Bool.eq_false_iff.mpr hempty)]
      rw [heq]
      exact (askPublicly_sends settings username org url _).alike .lacking (fun _ ↦ rfl) _
    rcases hlocation : response.location? with _ | target
    · exact hsame fun target h ↦ by rw [hlocation] at h; cases h
    · have hfails (token : String) (d : Url.Defect) (hempty : ¬target.isEmpty = true)
          (hd : publicAddress (asked.withToken token) target = .error d) :
          askPublicly settings username org url ⟨asked.withToken token, response⟩ =
            .faulty (.address d) := by
        simp only [askPublicly, hlocation, if_neg hempty, hd]
      obtain ⟨fixed, hfixed⟩ := publicAddress_withToken hasked target
      by_cases hempty : target.isEmpty = true
      · refine hsame fun target' h hempty' ↦ ?_
        rw [hlocation] at h
        cases h
        rw [hempty] at hempty'
        cases hempty'
      · rcases hfixed token₁ with ⟨d, hd, hlong⟩ | heq₁
        · rw [hfails token₁ d hempty hd]
          exact .lostLeft ⟨.fault (.address d), rfl, hlong⟩ _
        · rcases hfixed token₂ with ⟨d, hd, hlong⟩ | heq₂
          · rw [hfails token₂ d hempty hd]
            exact .lostRight ⟨.fault (.address d), rfl, hlong⟩ _
          · refine hsame fun target' h _ ↦ ?_
            rw [hlocation] at h
            cases h
            rw [heq₁, heq₂]

/-! ### Questions -/

variable (settings : ProviderSettings) (user : User) (tokens : Tokens)

/-- The question about an organization is alike with either token. -/
theorem askOrganization_alike (org : String) :
    Process.AlikeBut token₁ token₂ Eq
      (askOrganization settings user { tokens with access := token₁ } org)
      (askOrganization settings user { tokens with access := token₂ } org) := by
  unfold askOrganization
  split
  · exact .done rfl
  · refine (Query.get_alike settings _).andThen fun reply₁ reply₂ hreply ↦ ?_
    have hresponse : reply₁.response = reply₂.response := by
      cases hreply
      rfl
    rw [hresponse]
    split
    · exact askPublicly_alike settings _ org _ hreply
    · exact Process.Sends.alike ⟨0, readOrganization_obeys ..⟩ .lacking (fun _ ↦ rfl) _

/-- The question about a team is alike with either token. -/
theorem askTeam_alike (org team : String) :
    Process.AlikeBut token₁ token₂ Eq
      (askTeam settings user { tokens with access := token₁ } org team)
      (askTeam settings user { tokens with access := token₂ } org team) := by
  unfold askTeam
  split
  · exact .done rfl
  · refine (Query.get_alike settings _).andThen fun reply₁ reply₂ hreply ↦ ?_
    have hresponse : reply₁.response = reply₂.response := by
      cases hreply
      rfl
    rw [hresponse]
    exact Process.Sends.alike ⟨0, readTeam_obeys ..⟩ .lacking (fun _ ↦ rfl) _

/-- The question about a group is alike with either token. -/
theorem ask_alike (group : Group) :
    Process.AlikeBut token₁ token₂ Eq (ask settings user { tokens with access := token₁ } group)
      (ask settings user { tokens with access := token₂ } group) := by
  cases group with
  | organization org => exact askOrganization_alike settings user tokens org
  | team org name => exact askTeam_alike settings user tokens org name

/-! ### Probes -/

theorem quiet_closingNotes (username entry : String) (group : Group) (s : Standing) :
    Quiet (closingNotes username entry group s) := by
  intro what hwhat r
  rcases List.mem_cons.mp hwhat with rfl | hwhat
  · exact nofun
  · split at hwhat
    · rw [List.mem_singleton.mp hwhat]
      exact nofun
    · cases hwhat

theorem quiet_job (entry : String) (answer : Option (Except Problem Bool)) :
    Quiet ((job settings user tokens entry).conclude answer).1 := by
  unfold job
  split
  · intro what hwhat r
    rw [List.mem_singleton.mp hwhat]
    exact nofun
  · rename_i group _
    show Quiet (conclude settings user.username entry group answer).1
    unfold conclude
    split
    · exact quiet_closingNotes _ _ _ _
    · exact nofun

/-- The job of an entry is alike with either token. -/
theorem job_alike (entry : String) :
    Job.Alike (Request.SameBut token₁ token₂) (FailsBy Fault.isTooLong)
      (job settings user { tokens with access := token₁ } entry)
      (job settings user { tokens with access := token₂ } entry) := by
  have hquiet := quiet_job settings user { tokens with access := token₁ } entry
  unfold job at hquiet ⊢
  split
  · rename_i hgroup
    simp only [hgroup] at hquiet
    exact ⟨.done rfl, rfl, rfl, hquiet⟩
  · rename_i group hgroup
    simp only [hgroup] at hquiet
    refine ⟨(ask_alike settings user tokens group).mono ?_, rfl, rfl, hquiet⟩
    rintro _ ⟨problem, rfl, hlong⟩
    cases problem with
    | failure f => cases hlong
    | fault f => exact ⟨f, rfl, hlong⟩

variable {σ : Type}

/-- The outcome is a fault, and the fault is that an address is too long. -/
def Outcome.isTooLong : Outcome → Bool
  | faulty f => f.isTooLong
  | _ => false

/-- The same probes with either of two access tokens. -/
structure Fanout.AlikeBut (token₁ token₂ : String) (fan₁ fan₂ : Fanout σ) : Prop where
  time : fan₁.time = fan₂.time
  state : fan₁.state = fan₂.state
  outcome : fan₁.outcome = fan₂.outcome
  trace : fan₁.trace.Alike (Request.SameBut token₁ token₂) fan₂.trace

/-- A fan-out is alike with either token, unless one of its probes ends because an address is too
long. -/
theorem fanOut_alike {responder : Responder σ} (hresponder : responder.IgnoresQueries)
    (settings : Settings) (last : Option Rat) (now : Rat) (state : σ) :
    Pool.IsLost (FailsBy Fault.isTooLong)
        (halted responder settings user { tokens with access := token₁ } now state last).1 ∨
      Pool.IsLost (FailsBy Fault.isTooLong)
        (halted responder settings user { tokens with access := token₂ } now state last).1 ∨
      Fanout.AlikeBut token₁ token₂
        (fanOut responder settings user { tokens with access := token₁ } last now state)
        (fanOut responder settings user { tokens with access := token₂ } last now state) := by
  have hjobs : List.Forall₂
      (Job.Alike (Request.SameBut token₁ token₂) (FailsBy Fault.isTooLong))
      (settings.whitelist.teams.map
        (job settings.provider user { tokens with access := token₁ }))
      (settings.whitelist.teams.map
        (job settings.provider user { tokens with access := token₂ })) := by
    rw [List.forall₂_map_left_iff, List.forall₂_map_right_iff]
    exact List.forall₂_same.mpr fun entry _ ↦ job_alike settings.provider user tokens entry
  have hplays : Pool.InStep (Request.SameBut token₁ token₂) (FailsBy Fault.isTooLong)
      (halted responder settings user { tokens with access := token₁ } now state last).1
      (halted responder settings user { tokens with access := token₂ } now state last).1 :=
    Pool.inStep_run (hresponder.blind token₁ token₂) hjobs last now state
  rcases hplays with hlost | hlost | halike
  · exact .inl hlost
  · exact .inr (.inl hlost)
  · obtain ⟨hhalt, htime⟩ := halike.left_eq
    refine .inr (.inr ⟨htime, halike.state, ?_, halike.trace⟩)
    rw [outcome_fanOut, outcome_fanOut, Pool.results, Pool.results, halike.ended]
    exact congrArg (Outcome.ofHalt · _) hhalt

/-- The end of a run that was lost is lost. -/
theorem isTooLong_closeRun {job : Job (Except Problem Bool) (Except Fault Membership)}
    (deadline last : Option Rat) {run : Process.Run (Except Problem Bool) σ}
    (h : run.IsLost fun a ↦ FailsBy Fault.isTooLong (job.conclude (some a)).2) :
    (closeRun job deadline last run).outcome.isTooLong = true := by
  obtain ⟨time, a, hending, f, hf, hlong⟩ := h
  have houtcome : (closeRun job deadline last run).outcome =
      gather [(job.conclude (some a)).2] := by
    unfold closeRun
    rw [hending]
  rw [houtcome, hf]
  exact hlong

/-- Jobs that conclude in the same way end alike after runs that are alike. -/
theorem closeRun_alike {job₁ job₂ : Job (Except Problem Bool) (Except Fault Membership)}
    (hconclude : job₁.conclude = job₂.conclude) (hquiet : ∀ answer, Quiet (job₁.conclude answer).1)
    (deadline last : Option Rat) {run₁ run₂ : Process.Run (Except Problem Bool) σ}
    (h : Process.Run.Alike (Request.SameBut token₁ token₂) Eq run₁ run₂) :
    Fanout.AlikeBut token₁ token₂ (closeRun job₁ deadline last run₁)
      (closeRun job₂ deadline last run₂) := by
  have hclosed (time : Rat) (answer : Option (Except Problem Bool)) :
      Trace.Alike (Request.SameBut token₁ token₂)
        (run₁.trace ++ (job₁.conclude answer).1.map fun what ↦ ⟨time, what⟩)
        (run₂.trace ++ (job₁.conclude answer).1.map fun what ↦ ⟨time, what⟩) :=
    h.trace.append (Trace.alike_of_quiet _ (hquiet answer) time)
  obtain ⟨trace₁, state₁, ending₁⟩ := run₁
  obtain ⟨trace₂, state₂, ending₂⟩ := run₂
  have hending := h.ending
  unfold closeRun
  dsimp only at hending hclosed ⊢
  rw [← hconclude]
  cases hending with
  | finished time hresult =>
    rw [hresult]
    exact ⟨rfl, h.state, rfl, hclosed time _⟩
  | stopped time =>
    dsimp only
    split
    · exact ⟨rfl, h.state, rfl, hclosed time none⟩
    · exact ⟨rfl, h.state, rfl, h.trace⟩
  | never time => exact ⟨rfl, h.state, rfl, h.trace⟩

/-- A single probe is alike with either token, unless it ends because an address is too long. -/
theorem probeEntry_alike {responder : Responder σ} (hresponder : responder.IgnoresQueries)
    (entry : String) (last : Option Rat) (now : Rat) (state : σ) :
    (probeEntry responder settings user { tokens with access := token₁ } entry last now
        state).outcome.isTooLong = true ∨
      (probeEntry responder settings user { tokens with access := token₂ } entry last now
        state).outcome.isTooLong = true ∨
      Fanout.AlikeBut token₁ token₂
        (probeEntry responder settings user { tokens with access := token₁ } entry last now state)
        (probeEntry responder settings user { tokens with access := token₂ } entry last now
          state) := by
  have hjob := @job_alike token₁ token₂ settings user tokens entry
  unfold probeEntry
  dsimp only
  rw [← hjob.budget]
  rcases hjob.process.run (hresponder.blind token₁ token₂)
    (earlier ((job settings user { tokens with access := token₁ } entry).budget.map (now + ·)) last)
    now state with hlost | hlost | halike
  · exact .inl (isTooLong_closeRun _ last hlost)
  · refine .inr (.inl (isTooLong_closeRun _ last ?_))
    rwa [← hjob.conclude]
  · exact .inr (.inr (closeRun_alike hjob.conclude hjob.quiet _ last halike))

end Probe

end Admission
