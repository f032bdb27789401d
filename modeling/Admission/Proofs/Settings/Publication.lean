import Admission.Proofs.Outcome
import Admission.Settings.Store
import Mathlib.Data.List.Induction

/-!
# What is published

A store is read and written by calls: variables are set, the configuration or the settings are read,
settings are published. `lastPublication` tells from the calls alone, without looking into the
store, which settings were published last: those that were swapped in, those of the environment at a
reset or a refresh that succeeded, and those that the first use found. `published_history` says that
these are the settings in force after any calls, and that each of them came from one environment.

Two things are kept in a store besides the environment, and they are filled and forgotten at
different moments. `Sourced` is the invariant that ties the kept configuration to the past: whatever
it is, some environment of the history was read as it.
-/

set_option autoImplicit false
set_option relaxedAutoImplicit false

namespace Admission

/-- The settings that an environment stands for. -/
def Environment.snapshot (env : Environment) : Except Fault Settings :=
  env.configuration >>= Configuration.settings

namespace Store

/-! ### Calls -/

inductive Operation
  | assign (name : String) (value : Option String)
  | configure (refresh : Bool)
  | load (refresh : Bool)
  | get (refresh : Bool)
  | reset
  | swap (settings : Settings)

/-- What an operation makes of the environment. -/
def Operation.applyTo (env : Environment) : Operation → Environment
  | assign name value => env.assign name value
  | _ => env

/-- Performs an operation: the settings that it answers with, if any, and the store after it. -/
def perform (store : Store) : Operation → Except Fault (Option Settings) × Store
  | .assign name value => (.ok none, store.setVariable name value)
  | .configure refresh =>
    ((store.configure refresh).answer.map fun _ ↦ none, (store.configure refresh).store)
  | .load refresh => ((store.load refresh).answer.map some, (store.load refresh).store)
  | .get refresh => ((store.get refresh).answer.map some, (store.get refresh).store)
  | .reset => (store.reset.answer.map fun _ ↦ none, store.reset.store)
  | .swap settings => (.ok none, store.publish settings)

/-- An operation as it is seen from outside: what was asked in which environment, and the answer. -/
structure Call where
  operation : Operation
  environment : Environment
  answer : Except Fault (Option Settings)

/-- The settings that a call publishes, if any; a use publishes what it finds if it is the first. -/
def Call.publication (call : Call) (isFirst : Bool) : Option Settings :=
  match call.operation, call.answer with
  | .swap settings, _ => some settings
  | .reset, .ok _ => call.environment.snapshot.toOption
  | .get true, .ok _ => call.environment.snapshot.toOption
  | .get false, .ok found => if isFirst then found else none
  | _, _ => none

/-- The settings that were published last, by the calls. -/
def lastPublication (calls : List Call) : Option Settings :=
  calls.foldl (fun published call ↦ (call.publication published.isNone).or published) none

/-- The calls up to now, and the store after them. -/
structure History where
  calls : List Call
  store : Store

namespace History

def call (history : History) (operation : Operation) : Call :=
  ⟨operation, history.store.environment, (history.store.perform operation).1⟩

def perform (history : History) (operation : Operation) : History :=
  ⟨history.calls ++ [history.call operation], (history.store.perform operation).2⟩

/-- The history of some operations that begins in an environment, when nothing has been read. -/
def ofOperations (env : Environment) (operations : List Operation) : History :=
  operations.foldl History.perform ⟨[], { environment := env }⟩

/-- The environments that there have been, the current one included. -/
def environments (history : History) : List Environment :=
  history.calls.map Call.environment ++ [history.store.environment]

end History

/-! ### What an access does to the store -/

section Access

variable {store : Store} {envs : List Environment} {refresh : Bool}

/-- A configuration that is kept is not read again. -/
theorem configure_of_some {c : Configuration} (h : store.configuration = some c) :
    store.configure false = { answer := .ok c, store } := by
  simp only [configure, Bool.false_eq_true, if_false, h]

/-- Where none is kept, the environment is read, and the configuration is kept if that succeeds. -/
theorem configure_of_none (h : store.configuration = none) :
    store.configure false =
      { answer := store.environment.configuration
        store := { store with configuration := store.environment.configuration.toOption } } := by
  obtain ⟨environment, configuration, published⟩ := store
  obtain rfl : configuration = none := h
  simp only [configure, Bool.false_eq_true, if_false]
  rcases environment.configuration with f | c <;> rfl

theorem configure_true (store : Store) : store.configure true = store.forget.configure false :=
  rfl

theorem configure_fresh (store : Store) :
    (store.configure true).answer = store.environment.configuration := by
  rw [configure_true, configure_of_none rfl]
  rfl

/-- Reading the configuration changes nothing but the one that is kept. -/
theorem configure_store (store : Store) (refresh : Bool) :
    ∃ configuration, (store.configure refresh).store = { store with configuration } := by
  cases refresh with
  | false =>
    rcases h : store.configuration with _ | c
    · rw [configure_of_none h]
      exact ⟨_, rfl⟩
    · rw [configure_of_some h]
      exact ⟨_, rfl⟩
  | true =>
    rw [configure_true, configure_of_none rfl]
    exact ⟨_, rfl⟩

theorem configure_published (store : Store) (refresh : Bool) :
    (store.configure refresh).store.published = store.published := by
  obtain ⟨configuration, h⟩ := configure_store store refresh
  rw [h]

theorem configure_environment (store : Store) (refresh : Bool) :
    (store.configure refresh).store.environment = store.environment := by
  obtain ⟨configuration, h⟩ := configure_store store refresh
  rw [h]

/-- The settings are those of the configuration that is read, and loading them changes no more than
reading it. -/
theorem load_eq (store : Store) (refresh : Bool) :
    ∃ notices, store.load refresh =
      { answer := (store.configure refresh).answer >>= Configuration.settings
        notices
        store := (store.configure refresh).store } := by
  unfold load
  dsimp only
  rcases (store.configure refresh).answer with f | c
  · exact ⟨[], rfl⟩
  · show ∃ notices, _ = (⟨c.settings, notices, _⟩ : Access Settings)
    dsimp only
    rcases c.settings with f | s
    · exact ⟨[], rfl⟩
    · exact ⟨unusedTeams s, rfl⟩

theorem load_answer (store : Store) (refresh : Bool) :
    (store.load refresh).answer = (store.configure refresh).answer >>= Configuration.settings := by
  obtain ⟨notices, h⟩ := load_eq store refresh
  rw [h]

theorem load_store (store : Store) (refresh : Bool) :
    (store.load refresh).store = (store.configure refresh).store := by
  obtain ⟨notices, h⟩ := load_eq store refresh
  rw [h]

theorem load_fresh (store : Store) : (store.load true).answer = store.environment.snapshot := by
  rw [load_answer, configure_fresh]
  rfl

theorem load_published (store : Store) (refresh : Bool) :
    (store.load refresh).store.published = store.published := by
  rw [load_store, configure_published]

theorem load_environment (store : Store) (refresh : Bool) :
    (store.load refresh).store.environment = store.environment := by
  rw [load_store, configure_environment]

/-- Publishing what was loaded answers the same. -/
theorem publish_answer (loaded : Access Settings) : loaded.publish.answer = loaded.answer := by
  unfold Access.publish
  split <;> rfl

/-- What was loaded is published if loading succeeded, and else what was published before stays. -/
theorem publish_store (loaded : Access Settings) :
    loaded.publish.store =
      { loaded.store with
        published := loaded.answer.toOption.or loaded.store.published } := by
  unfold Access.publish
  rcases h : loaded.answer with f | s <;> rfl

theorem reset_answer (store : Store) : store.reset.answer = store.environment.snapshot := by
  rw [reset, publish_answer, load_fresh]

theorem get_of_published {s : Settings} (h : store.published = some s) :
    store.get false = { answer := .ok s, store } := by
  simp only [get, Bool.false_eq_true, if_false, h]

theorem get_of_none (h : store.published = none) :
    store.get false = (store.load false).publish := by
  simp only [get, Bool.false_eq_true, if_false, h]

/-! ### Where configurations come from -/

/-- A configuration that is kept was read from one of some environments. -/
def Sourced (envs : List Environment) (store : Store) : Prop :=
  ∀ c, store.configuration = some c → ∃ env ∈ envs, env.configuration = .ok c

theorem sourced_of_none (h : store.configuration = none) : Sourced envs store := by
  intro c hc
  rw [h] at hc
  cases hc

/-- Whatever is read has its source, and so has what is kept then. -/
theorem Sourced.configure (h : Sourced envs store) (henv : store.environment ∈ envs)
    (refresh : Bool) :
    Sourced envs (store.configure refresh).store ∧
      ∀ c, (store.configure refresh).answer = .ok c → ∃ env ∈ envs, env.configuration = .ok c := by
  have hread (kept : Store) (hkept : Sourced envs kept) (henv : kept.environment ∈ envs) :
      Sourced envs (kept.configure false).store ∧
        ∀ c, (kept.configure false).answer = .ok c → ∃ env ∈ envs, env.configuration = .ok c := by
    rcases hnone : kept.configuration with _ | c
    · rw [configure_of_none hnone]
      refine ⟨?_, fun c hc ↦ ⟨_, henv, hc⟩⟩
      intro c hc
      exact ⟨_, henv, eq_ok_of_toOption hc⟩
    · rw [configure_of_some hnone]
      refine ⟨hkept, ?_⟩
      rintro _ ⟨⟩
      exact hkept c hnone
  cases refresh with
  | false => exact hread store h henv
  | true => exact hread store.forget (sourced_of_none rfl) henv

/-- Settings that are loaded are those of one environment. -/
theorem Sourced.load (h : Sourced envs store) (henv : store.environment ∈ envs) {s : Settings}
    (hload : (store.load refresh).answer = .ok s) : ∃ env ∈ envs, env.snapshot = .ok s := by
  rw [load_answer] at hload
  rcases hread : (store.configure refresh).answer with f | c
  · rw [hread] at hload
    cases hload
  · obtain ⟨env, hmem, hconfiguration⟩ := (h.configure henv refresh).2 c hread
    refine ⟨env, hmem, ?_⟩
    rw [hread] at hload
    rw [Environment.snapshot, hconfiguration]
    exact hload

theorem Sourced.load_store (h : Sourced envs store) (henv : store.environment ∈ envs)
    (refresh : Bool) : Sourced envs (store.load refresh).store := by
  rw [Store.load_store]
  exact (h.configure henv refresh).1

theorem Sourced.publish {loaded : Access Settings} (h : Sourced envs loaded.store) :
    Sourced envs loaded.publish.store := by
  rw [publish_store]
  exact h

end Access

/-! ### What an operation does -/

section Perform

variable {store : Store} {envs : List Environment}

/-- No operation but an assignment changes the environment. -/
theorem perform_environment (store : Store) (operation : Operation) :
    (store.perform operation).2.environment = operation.applyTo store.environment := by
  have hreset : store.reset.store.environment = store.environment := by
    rw [reset, publish_store, load_environment]
  cases operation with
  | assign name value => rfl
  | configure refresh => exact configure_environment store refresh
  | load refresh => exact load_environment store refresh
  | get refresh =>
    cases refresh with
    | true => exact hreset
    | false =>
      show (store.get false).store.environment = store.environment
      rcases h : store.published with _ | s
      · rw [get_of_none h, publish_store, load_environment]
      · rw [get_of_published h]
  | reset => exact hreset
  | swap settings => rfl

/-- What is published after an operation is what the call published, or else what was published
before. -/
theorem perform_published (store : Store) (operation : Operation) :
    (store.perform operation).2.published =
      (Call.publication ⟨operation, store.environment, (store.perform operation).1⟩
        store.published.isNone).or store.published := by
  have hreset : store.reset.store.published =
      store.environment.snapshot.toOption.or store.published := by
    rw [reset, publish_store, load_published, load_fresh]
  cases operation with
  | assign name value => rfl
  | configure refresh => exact configure_published store refresh
  | load refresh => exact load_published store refresh
  | get refresh =>
    cases refresh with
    | true =>
      show store.reset.store.published =
        (Call.publication ⟨.get true, store.environment, store.reset.answer.map some⟩ _).or _
      rw [hreset, reset_answer]
      rcases h : store.environment.snapshot with f | s
      · rfl
      · simp only [Call.publication, Except.map, h]
    | false =>
      show (store.get false).store.published = (Call.publication
        ⟨.get false, store.environment, (store.get false).answer.map some⟩ _).or _
      rcases h : store.published with _ | s
      · rw [get_of_none h, publish_store, publish_answer, load_published, h]
        rcases (store.load false).answer with f | s <;> rfl
      · rw [get_of_published h, h]
        rfl
  | reset =>
    show store.reset.store.published =
      (Call.publication ⟨.reset, store.environment, store.reset.answer.map fun _ ↦ none⟩ _).or _
    rw [hreset, reset_answer]
    rcases h : store.environment.snapshot with f | s
    · rfl
    · simp only [Call.publication, Except.map, h]
  | swap settings => rfl

theorem Sourced.perform (h : Sourced envs store) (henv : store.environment ∈ envs)
    (operation : Operation) : Sourced envs (store.perform operation).2 := by
  have hload (refresh : Bool) : Sourced envs (store.load refresh).publish.store :=
    (h.load_store henv refresh).publish
  cases operation with
  | assign name value => exact h
  | configure refresh => exact (h.configure henv refresh).1
  | load refresh => exact h.load_store henv refresh
  | get refresh =>
    cases refresh with
    | true => exact hload true
    | false =>
      show Sourced envs (store.get false).store
      rcases hpublished : store.published with _ | s
      · rw [get_of_none hpublished]
        exact hload false
      · rw [get_of_published hpublished]
        exact h
  | reset => exact hload true
  | swap settings => exact h

/-- What a call publishes that swaps nothing in are the settings of one environment. -/
theorem Sourced.publication (h : Sourced envs store) (henv : store.environment ∈ envs)
    {operation : Operation} (hswap : ∀ settings, operation ≠ .swap settings) {s : Settings}
    (hs : Call.publication ⟨operation, store.environment, (store.perform operation).1⟩
      store.published.isNone = some s) : ∃ env ∈ envs, env.snapshot = .ok s := by
  have hfresh {answer : Except Fault (Option Settings)} (hoperation : operation = .reset ∨
      operation = .get true) (hs : Call.publication ⟨operation, store.environment, answer⟩
        store.published.isNone = some s) : store.environment.snapshot = .ok s := by
    rcases hoperation with rfl | rfl <;> rcases answer with f | found
    · cases hs
    · exact eq_ok_of_toOption hs
    · cases hs
    · exact eq_ok_of_toOption hs
  cases operation with
  | assign name value => cases hs
  | configure refresh => cases hs
  | load refresh => cases hs
  | get refresh =>
    cases refresh with
    | true => exact ⟨_, henv, hfresh (.inr rfl) hs⟩
    | false =>
      replace hs : Call.publication
        ⟨.get false, store.environment, (store.get false).answer.map some⟩
          store.published.isNone = some s := hs
      rcases hpublished : store.published with _ | published
      · rw [get_of_none hpublished, publish_answer, hpublished] at hs
        rcases hload : (store.load false).answer with f | found
        · rw [hload] at hs
          cases hs
        · rw [hload] at hs
          cases hs
          exact h.load henv hload
      · rw [get_of_published hpublished, hpublished] at hs
        cases hs
  | reset => exact ⟨_, henv, hfresh (.inl rfl) hs⟩
  | swap settings => exact absurd rfl (hswap settings)

end Perform

/-! ### Histories -/

theorem lastPublication_append (calls : List Call) (call : Call) :
    lastPublication (calls ++ [call]) =
      (call.publication (lastPublication calls).isNone).or (lastPublication calls) := by
  rw [lastPublication, List.foldl_append]
  rfl

/-- What is known of a history: the environment is what the assignments made of the first one, the
published settings are those that were published last, and what is kept was read from one of its
environments. -/
structure History.Kept (env : Environment) (operations : List Operation) (history : History) :
    Prop where
  environment : history.store.environment = operations.foldl Operation.applyTo env
  published : history.store.published = lastPublication history.calls
  sourced : Sourced history.environments history.store

theorem History.Kept.perform {env : Environment} {operations : List Operation} {history : History}
    (h : history.Kept env operations) (operation : Operation) :
    (history.perform operation).Kept env (operations ++ [operation]) := by
  have hcurrent : history.store.environment ∈ history.environments :=
    List.mem_append_right _ List.mem_cons_self
  refine ⟨?_, ?_, ?_⟩
  · rw [List.foldl_append, ← h.environment]
    exact perform_environment history.store operation
  · show (history.store.perform operation).2.published = _
    rw [perform_published, h.published]
    exact (lastPublication_append history.calls (history.call operation)).symm
  · intro c hc
    obtain ⟨e, he, hread⟩ := h.sourced.perform hcurrent operation c hc
    refine ⟨e, List.mem_append_left _ ?_, hread⟩
    show e ∈ (history.calls ++ [history.call operation]).map Call.environment
    rw [List.map_append]
    exact he

theorem kept_ofOperations (env : Environment) (operations : List Operation) :
    (History.ofOperations env operations).Kept env operations := by
  induction operations using List.reverseRecOn with
  | nil => exact ⟨rfl, rfl, sourced_of_none rfl⟩
  | append_singleton operations operation ih =>
    rw [History.ofOperations, List.foldl_append]
    exact ih.perform operation

/-- After any operations the published settings are those that were published last, by the calls and
their answers, and a use without a refresh answers with exactly these; where there are none yet, it
publishes those that it loads. Whatever fails leaves them as they are, and loading always does. A
reset or a refresh answers for the environment at that moment, and if it succeeds, this is what is
published. Whatever is published without being swapped in are the settings of one environment that
there has been. -/
theorem published_history (env : Environment) (operations : List Operation) :
    let history := History.ofOperations env operations
    let store := history.store
    store.environment = operations.foldl Operation.applyTo env ∧
      store.published = lastPublication history.calls ∧
      (∀ s, lastPublication history.calls = some s →
        store.get false = { answer := .ok s, store }) ∧
      (lastPublication history.calls = none → store.get false = (store.load false).publish) ∧
      (∀ operation f, (store.perform operation).1 = .error f →
        (store.perform operation).2.published = store.published) ∧
      (∀ refresh, (store.load refresh).store.published = store.published) ∧
      store.reset.answer = store.environment.snapshot ∧
      (store.get true).answer = store.environment.snapshot ∧
      (∀ s, store.environment.snapshot = .ok s →
        store.reset.store.published = some s ∧ (store.get true).store.published = some s) ∧
      ∀ operation s, (∀ settings, operation ≠ .swap settings) →
        (history.call operation).publication store.published.isNone = some s →
          ∃ e ∈ history.environments, e.snapshot = .ok s := by
  intro history store
  have hkept : history.Kept env operations := kept_ofOperations env operations
  have hreset (s : Settings) (hs : store.environment.snapshot = .ok s) :
      store.reset.store.published = some s := by
    rw [reset, publish_store, load_fresh, hs]
    rfl
  refine ⟨hkept.environment, hkept.published, ?_, ?_, ?_, load_published store,
    reset_answer store, reset_answer store, fun s hs ↦ ⟨hreset s hs, hreset s hs⟩, ?_⟩
  · intro s hs
    exact get_of_published (hkept.published.trans hs)
  · intro hnone
    exact get_of_none (hkept.published.trans hnone)
  · intro operation f hfails
    have hnone : Call.publication ⟨operation, store.environment, (store.perform operation).1⟩
        store.published.isNone = none := by
      rw [hfails]
      cases operation with
      | swap settings => cases hfails
      | get refresh => cases refresh <;> rfl
      | assign name value => rfl
      | configure refresh => rfl
      | load refresh => rfl
      | reset => rfl
    rw [perform_published, hnone]
    rfl
  · intro operation s hswap hs
    exact hkept.sourced.publication (List.mem_append_right _ List.mem_cons_self) hswap hs

/-- A reset fails on what was assigned since the first use, and what that use found stays. -/
example :
    let history := History.ofOperations [("WHITELIST", "alice")]
      [.get false, .assign "WHITELIST" (some "bob"), .assign "PROBE_TIMEOUT" (some "soon"), .reset]
    history.calls.map (·.answer.isOk) = [true, true, true, false] ∧
      (history.store.published.map fun s ↦ s.whitelist.users) = some ["alice"] := by
  decide +kernel

end Store

end Admission
