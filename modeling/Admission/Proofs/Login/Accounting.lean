import Admission.Gate
import Admission.Proofs.Login.Stages
import Admission.Proofs.Metrics
import Admission.Proofs.Probe.Counting

/-!
# What logins count

A login counts its probes as they end, and at its own end the decision, or that it could not be
decided; nothing else is counted on the way, whatever goes wrong (`counts_authorize`). So the
totals of a sequence of logins tell how many of them were allowed, denied and undecided, and how
many probes came to which standing (`authorize_accounts`).
-/

set_option autoImplicit false
set_option relaxedAutoImplicit false

namespace Admission.Login

variable {σ : Type}

/-! ### Up to the profile nothing is counted -/

section Nothing

variable (p : Progress σ)

theorem counts_note (notices : List Notice) :
    (p.note notices).trace.counts = p.trace.counts := by
  show Trace.counts (p.trace ++ _) = _
  rw [Trace.counts_append, Trace.counts_notices, List.append_nil]

theorem counts_count (c : Count) : (p.count c).trace.counts = p.trace.counts ++ [c] :=
  Trace.counts_append ..

/-- A process leaves the counts as they are if what is made of its result does. -/
theorem counts_conduct {α : Type} (process : Process (Except Problem α)) (responder : Responder σ)
    (last : Option Rat) {f : α → Progress σ → Progress σ}
    (hf : ∀ a (q : Progress σ), (f a q).trace.counts = q.trace.counts) :
    (p.conduct responder last process f).trace.counts = p.trace.counts := by
  have hrun : Trace.counts (p.trace ++ (process.run responder last p.time p.state).trace) =
      p.trace.counts := by
    rw [Trace.counts_append, Process.counts_run, List.append_nil]
  unfold Progress.conduct
  dsimp only
  split
  · exact (hf _ _).trans hrun
  · exact hrun
  · exact hrun

theorem counts_takeOver (mapper : Fields → User → Profile.Mapped) (payload : Fields) :
    (takeOver mapper payload p).trace.counts = p.trace.counts := by
  unfold takeOver
  dsimp only
  split
  · exact counts_note _ _
  · exact counts_note _ _

theorem counts_takeIdToken (token : Tokens) :
    (takeIdToken token p).trace.counts = p.trace.counts := by
  unfold takeIdToken
  split
  · rfl
  · split
    · rfl
    · split <;> rfl

variable (world : Surroundings σ) (handler : Handler) (settings : Settings) (visit : Visit)

theorem counts_introduce (token : Tokens) :
    (introduce world handler settings token p).trace.counts = p.trace.counts := by
  have hconduct (q : Progress σ) {mapper : Fields → User → Profile.Mapped} {parameter authorization}
      : (q.conduct world.responder world.last
        (fetchProfile settings.provider.userInfoUrl parameter authorization)
        (takeOver mapper)).trace.counts = q.trace.counts :=
    counts_conduct q _ world.responder world.last fun payload q ↦ counts_takeOver q mapper payload
  unfold introduce
  cases handler.provider with
  | github => exact hconduct p
  | oidc =>
    dsimp only [Progress.andThen]
    split
    · exact counts_takeIdToken p token
    · exact (hconduct _).trans (counts_takeIdToken p token)

theorem counts_afterProfile : (afterProfile world handler settings visit).trace.counts = [] := by
  unfold afterProfile
  dsimp only
  split
  · rfl
  · rw [counts_introduce, counts_note]
    rfl

end Nothing

/-! ### Probes and decisions -/

section Counted

variable (world : Surroundings σ) (handler : Handler) (settings : Settings) (visit : Visit)

theorem counts_settleMemberships (results : List Membership) (p : Progress σ) :
    (settleMemberships results p).trace.counts = p.trace.counts := by
  unfold settleMemberships
  dsimp only
  split
  · rfl
  · exact counts_note _ _

theorem counts_probeTeams (responder : Responder σ) (token : Tokens) (last : Option Rat)
    (p : Progress σ) :
    (probeTeams responder settings token last p).trace.counts =
      p.trace.counts ++ (Probe.halted responder settings p.user token p.time p.state
        last).1.ended.flatMap fun e ↦ Probe.tally e.result := by
  rw [← Probe.counts_fanOut, ← Trace.counts_append]
  unfold probeTeams
  dsimp only
  split
  · exact counts_settleMemberships _ _
  · rfl
  · rfl

/-- A login counts its probes before it is decided. -/
theorem counts_describe :
    (describe world handler settings visit).trace.counts =
      (probes world handler settings visit).flatMap fun e ↦ Probe.tally e.result := by
  have hnothing := counts_afterProfile world handler settings visit
  rw [describe_eq]
  unfold Progress.andThen probes settle
  rcases hproblem : (afterProfile world handler settings visit).problem with _ | problem
  · cases hprovider : handler.provider with
    | github =>
      dsimp only
      rw [counts_probeTeams, hnothing, hproblem, List.nil_append]
    | oidc =>
      dsimp only
      split
      · exact hnothing
      · rw [counts_note]
        exact hnothing
  · dsimp only
    rw [hproblem]
    cases handler.provider <;> exact hnothing

/-- What is counted at the end of a login, by its answer. -/
def verdict : Except Problem (Option Decision) → List Count
  | .ok (some decision) => [.decision (if decision.allowed then "allowed" else "denied")]
  | .error (.failure (.indeterminate _ _)) => [.decision "indeterminate"]
  | _ => []

theorem counts_surface {p : Progress σ} {problem : Problem} (h : p.problem = some problem) :
    (surface p).trace.counts = p.trace.counts ++ verdict (.error problem) := by
  unfold surface
  rw [h]
  split
  · rename_i entry cause hindeterminate
    cases hindeterminate
    rw [counts_note, counts_count]
    rfl
  · rename_i hother
    have hnothing : verdict (.error problem) = [] := by
      unfold verdict
      split
      · rename_i heq
        cases heq
      · rename_i heq
        cases heq
        exact absurd rfl (hother _ _)
      · rfl
    rw [hnothing, List.append_nil]

/-- A login counts its probes and then its end. -/
theorem counts_authorize :
    (authorize world handler settings visit).2.trace.counts =
      (probes world handler settings visit).flatMap (fun e ↦ Probe.tally e.result) ++
        verdict ((authorize world handler settings visit).1.map some) := by
  rw [← counts_describe]
  unfold authorize
  dsimp only
  rcases hproblem : (describe world handler settings visit).problem with _ | problem
  · dsimp only [decide]
    rw [counts_note, counts_count]
    rfl
  · exact counts_surface hproblem

end Counted

/-! ### Sequences of logins -/

/-- A login that is to be decided, with the store as it is then and the settings that it is given,
if any. -/
structure Call where
  {σ : Type}
  store : Store
  world : Surroundings σ
  handler : Handler
  given : Option Settings := none
  visit : Visit

namespace Call

variable (call : Call)

def passage : Passage call.σ :=
  pass call.store .decide call.world call.handler call.given call.visit

def answer : Except Problem (Option Decision) :=
  call.passage.answer

/-- The settings that a login uses, unless they cannot be read. -/
def settings? : Option Settings :=
  (Handler.settingsOr (call.given <|> call.handler.pinned) call.store).answer.toOption

/-- The ends of the probes of a login. -/
def probes : List (Ended (Except Fault Membership)) :=
  match call.settings? with
  | some settings => Login.probes call.world call.handler settings call.visit
  | none => []

/-- The counters after a login. -/
def addTo (metrics : Metrics) : Metrics :=
  let gate : Gate := { store := call.store, metrics }
  (gate.login .decide call.world call.handler call.given call.visit).2.metrics

/-- What a login counts. -/
def counts : List Count :=
  call.passage.progress.trace.counts

end Call

/-- The answer is a decision that lets the user pass. -/
def isAllowed : Except Problem (Option Decision) → Bool
  | .ok (some decision) => decision.allowed
  | _ => false

/-- The answer is a decision that does not let the user pass. -/
def isDenied : Except Problem (Option Decision) → Bool
  | .ok (some decision) => !decision.allowed
  | _ => false

/-- A membership could not be settled. -/
def isIndeterminate : Except Problem (Option Decision) → Bool
  | .error (.failure (.indeterminate _ _)) => true
  | _ => false

/-- Each kind of answer that a count stands for is counted once. -/
theorem count_verdict (answer : Except Problem (Option Decision)) :
    (verdict answer).count (.decision "allowed") = [answer].countP isAllowed ∧
      (verdict answer).count (.decision "denied") = [answer].countP isDenied ∧
      (verdict answer).count (.decision "indeterminate") = [answer].countP isIndeterminate := by
  rcases answer with problem | _ | decision
  · rcases problem with failure | f
    · cases failure <;> exact ⟨rfl, rfl, rfl⟩
    · exact ⟨rfl, rfl, rfl⟩
  · exact ⟨rfl, rfl, rfl⟩
  · by_cases hallowed : decision.allowed = true <;>
      simp [verdict, isAllowed, isDenied, isIndeterminate, hallowed]

/-- Any other answer is not counted. -/
theorem verdict_eq_nil {answer : Except Problem (Option Decision)}
    (hallowed : isAllowed answer = false) (hdenied : isDenied answer = false)
    (hindeterminate : isIndeterminate answer = false) : verdict answer = [] := by
  rcases answer with problem | _ | decision
  · rcases problem with failure | f
    · cases failure with
      | indeterminate entry cause => cases hindeterminate
      | _ => rfl
    · rfl
  · rfl
  · simp only [isAllowed, isDenied, Bool.not_eq_false'] at hallowed hdenied
    rw [hallowed] at hdenied
    cases hdenied

theorem mem_all_of_mem_verdict {answer : Except Problem (Option Decision)} {c : Count}
    (h : c ∈ verdict answer) : c ∈ Count.all := by
  unfold verdict at h
  split at h
  · rename_i decision
    rw [List.mem_singleton.mp h]
    cases decision.allowed <;> simp [Count.all]
  · rw [List.mem_singleton.mp h]
    simp [Count.all]
  · cases h

theorem counts_precede (notices : List Notice) (p : Progress σ) :
    (precede notices p).trace.counts = p.trace.counts := by
  show Trace.counts (_ ++ p.trace) = _
  rw [Trace.counts_append, Trace.counts_notices, List.nil_append]

/-- A login counts its probes as they end, and then its own end. -/
theorem Call.counts_eq (call : Call) :
    call.counts = call.probes.flatMap (fun e ↦ Probe.tally e.result) ++
      verdict call.answer := by
  unfold counts answer probes settings? passage pass
  dsimp only
  rcases (Handler.settingsOr (call.given <|> call.handler.pinned) call.store).answer with
    f | settings
  · exact counts_precede _ _
  · dsimp only [perform, Except.toOption]
    rw [counts_precede, counts_authorize]

/-- A probe came to some standing of an entry that names a group of some kind. -/
def comesTo (kind result : String) (e : Ended (Except Fault Membership)) : Bool :=
  match e.result with
  | .ok m => (Group.ofEntry? m.entry).any (·.kind == kind) && m.standing.name == result
  | .error _ => false

/-- The words that are counted by, one by one. -/
theorem comesTo_iff {kind result : String} {e : Ended (Except Fault Membership)} :
    comesTo kind result e = true ↔ ∃ m, e.result = .ok m ∧
      ((∃ org, Group.ofEntry? m.entry = some (.organization org)) ∧ kind = "org" ∨
        (∃ org team, Group.ofEntry? m.entry = some (.team org team)) ∧ kind = "team") ∧
      (m.standing = .member ∧ result = "member" ∨
        m.standing = .notMember ∧ result = "not_member" ∨
        (∃ f, m.standing = .failed f) ∧ result = "error") := by
  have hkind (m : Membership) : (Group.ofEntry? m.entry).any (·.kind == kind) = true ↔
      (∃ org, Group.ofEntry? m.entry = some (.organization org)) ∧ kind = "org" ∨
        (∃ org team, Group.ofEntry? m.entry = some (.team org team)) ∧ kind = "team" := by
    rcases Group.ofEntry? m.entry with _ | org | ⟨org, team⟩
    · simp
    · simpa [Group.kind] using eq_comm
    · simpa [Group.kind] using eq_comm
  have hname (s : Standing) : (s.name == result) = true ↔ s = .member ∧ result = "member" ∨
      s = .notMember ∧ result = "not_member" ∨ (∃ f, s = .failed f) ∧ result = "error" := by
    cases s <;> simpa [Standing.name] using eq_comm
  unfold comesTo
  rcases e.result with f | m
  · exact iff_of_false nofun (by simp)
  · simp [Bool.and_eq_true, hkind, hname]

theorem count_tally (kind result : String) (e : Ended (Except Fault Membership)) :
    (Probe.tally e.result).count (.probe kind result) = [e].countP (comesTo kind result) := by
  rcases hresult : e.result with f | m
  · simp [Probe.tally, comesTo, hresult]
  · rcases hgroup : Group.ofEntry? m.entry with _ | group
    · simp [Probe.tally, comesTo, hresult, hgroup]
    · simp [Probe.tally, comesTo, hresult, hgroup, List.count_singleton]

/-- Counts of one thing in several rows are as many as there is of something else, if that is so in
each row. -/
theorem count_flatMap_eq {ι γ : Type*} {rows : List ι} {f : ι → List Count} {g : ι → List γ}
    {c : Count} {p : γ → Bool} (h : ∀ row, (f row).count c = (g row).countP p) :
    (rows.flatMap f).count c = (rows.flatMap g).countP p := by
  induction rows with
  | nil => rfl
  | cons row rows ih =>
    rw [List.flatMap_cons, List.flatMap_cons, List.count_append, List.countP_append, h, ih]

namespace Call

theorem count_probe (call : Call) (kind result : String) :
    call.counts.count (.probe kind result) = call.probes.countP (comesTo kind result) := by
  have hverdict : (verdict call.answer).count (.probe kind result) = 0 := by
    rw [List.count_eq_zero]
    unfold verdict
    split <;> simp
  rw [counts_eq, List.count_append, hverdict, Nat.add_zero,
    count_flatMap_eq (count_tally kind result), List.flatMap_singleton']

theorem count_decision (call : Call) (result : String) :
    call.counts.count (.decision result) =
      (verdict call.answer).count (.decision result) := by
  have hprobes :
      (call.probes.flatMap fun e ↦ Probe.tally e.result).count (.decision result) = 0 := by
    rw [List.count_eq_zero, List.mem_flatMap]
    rintro ⟨e, -, he⟩
    obtain ⟨m, group, -, -, hcount⟩ := Probe.mem_tally he
    cases hcount
  rw [counts_eq, List.count_append, hprobes, Nat.zero_add]

theorem mem_all_of_mem_counts {call : Call} {c : Count} (h : c ∈ call.counts) : c ∈ Count.all := by
  rw [counts_eq, List.mem_append, List.mem_flatMap] at h
  rcases h with ⟨e, -, he⟩ | h
  · obtain ⟨m, group, -, -, rfl⟩ := Probe.mem_tally he
    cases group <;> cases m.standing <;> simp [Count.all, Group.kind, Standing.name]
  · exact mem_all_of_mem_verdict h

/-- The probes of a login are those of different places in the whitelist, and each is about the
entry at its place. -/
theorem probes_sound (call : Call) :
    (call.probes.map Ended.position).Nodup ∧ ∀ e ∈ call.probes, ∀ m, e.result = .ok m →
      ∃ settings, call.settings? = some settings ∧
        settings.whitelist.teams[e.position]? = some m.entry := by
  unfold probes
  rcases call.settings? with _ | settings
  · exact ⟨.nil, nofun⟩
  · dsimp only [Login.probes]
    split
    · have hplaced := Probe.placed_halted call.world.responder settings
        (afterProfile call.world call.handler settings call.visit).user
        (usedTokens call.world call.handler call.visit)
        (afterProfile call.world call.handler settings call.visit).time
        (afterProfile call.world call.handler settings call.visit).state call.world.last
      refine ⟨hplaced.ended_nodup, fun e he m hm ↦ ⟨settings, rfl, ?_⟩⟩
      obtain ⟨entry, answer, hentry, hanswer⟩ := Probe.concluded_of_leads (Pool.leads_run ..).1 he
      rw [hentry, Probe.entry_of_conclude (hanswer.symm.trans hm)]
    · exact ⟨.nil, nofun⟩

end Call

theorem foldl_addTo (calls : List Call) (metrics : Metrics) :
    calls.foldl (fun metrics call ↦ call.addTo metrics) metrics =
      (calls.flatMap Call.counts).foldl Metrics.add metrics := by
  induction calls generalizing metrics with
  | nil => rfl
  | cons call calls ih =>
    rw [List.foldl_cons, ih, List.flatMap_cons, List.foldl_append]
    rfl

/-- Over any logins, of which each has its own world, handler, settings and user, the counters begin
with nothing. The decisions that are counted are as many as the logins that were allowed, denied and
undecided; a login that ends in any other way counts none. The probes that are counted are those of
entries that name a group and came to a standing, each once; every login has at most one for each
place of its whitelist, about the entry there. The totals tell all these numbers. -/
theorem authorize_accounts (calls : List Call) :
    let metrics := calls.foldl (fun metrics call ↦ call.addTo metrics) {}
    let counts := calls.flatMap Call.counts
    let answers := calls.map Call.answer
    metrics = counts.foldl Metrics.add {} ∧
      counts.count (.decision "allowed") = answers.countP isAllowed ∧
      counts.count (.decision "denied") = answers.countP isDenied ∧
      counts.count (.decision "indeterminate") = answers.countP isIndeterminate ∧
      (∀ call ∈ calls, isAllowed call.answer = false → isDenied call.answer = false →
        isIndeterminate call.answer = false → ∀ result, .decision result ∉ call.counts) ∧
      (∀ kind result, counts.count (.probe kind result) =
        (calls.flatMap Call.probes).countP (comesTo kind result)) ∧
      (∀ call ∈ calls, (call.probes.map Ended.position).Nodup ∧
        ∀ e ∈ call.probes, ∀ m, e.result = .ok m → ∃ settings, call.settings? = some settings ∧
          settings.whitelist.teams[e.position]? = some m.entry) ∧
      ∀ c ∈ Count.all, metrics.total? c =
        if counts.count c = 0 then none else some (Metrics.increments (counts.count c)) := by
  intro metrics counts answers
  have hmetrics : metrics = counts.foldl Metrics.add {} := foldl_addTo calls {}
  have hdecision {result : String} {p : Except Problem (Option Decision) → Bool}
      (h : ∀ answer, (verdict answer).count (.decision result) = [answer].countP p) :
      counts.count (.decision result) = answers.countP p := by
    have hanswers : answers = calls.flatMap fun call ↦ [call.answer] :=
      List.flatMap_pure_eq_map .. |>.symm
    rw [hanswers]
    exact count_flatMap_eq fun call ↦ (call.count_decision result).trans (h call.answer)
  have hall : ∀ c ∈ counts, c ∈ Count.all := by
    intro c hc
    obtain ⟨call, -, hcount⟩ := List.mem_flatMap.mp hc
    exact Call.mem_all_of_mem_counts hcount
  refine ⟨hmetrics, hdecision fun answer ↦ (count_verdict answer).1,
    hdecision fun answer ↦ (count_verdict answer).2.1,
    hdecision fun answer ↦ (count_verdict answer).2.2, ?_,
    fun kind result ↦ count_flatMap_eq fun call ↦ call.count_probe kind result,
    fun call _ ↦ call.probes_sound, ?_⟩
  · intro call _ hallowed hdenied hindeterminate result
    rw [← List.count_eq_zero, call.count_decision,
      verdict_eq_nil hallowed hdenied hindeterminate]
    rfl
  · intro c hc
    rw [hmetrics]
    exact Metrics.total_foldl_add hall hc

end Admission.Login
