import Admission.Login.Basic
import Admission.Settings.Store

/-!
The gate that logins pass through: the settings in force, the counters, and the handlers by name. A
handler that is pinned keeps its settings; any other reads the published ones at every login.
-/

set_option autoImplicit false
set_option relaxedAutoImplicit false

namespace Admission

namespace Handler

/-- The pinned settings, or else the published ones. -/
def settingsOr (pinned : Option Settings) (store : Store) : Store.Access Settings :=
  match pinned with
  | some settings => { answer := .ok settings, store }
  | none => store.get false

/-- The settings that a login uses. -/
def settings (handler : Handler) (store : Store) : Store.Access Settings :=
  settingsOr handler.pinned store

/-- The handler for the provider that the settings name. -/
def forSettings (pinned : Option Settings) (preparer : Preparer) (settings : Settings) :
    Except Fault Handler :=
  match Provider.ofName? settings.provider.name with
  | some provider => .ok { provider, preparer, pinned }
  | none => .error (.unknownProvider settings.provider.name)

/-- Makes a handler by the pinned settings, or else by the published ones. -/
def make (pinned : Option Settings) (preparer : Preparer) (store : Store) :
    Store.Access Handler :=
  let access := settingsOr pinned store
  { access with answer := access.answer.bind (forSettings pinned preparer) }

end Handler

/-- What a login is for: to describe the user only, or to decide as well. -/
inductive Purpose
  | describe
  | decide
  deriving DecidableEq, Repr

/-- What a login through a handler answers, how it went, and the store afterwards. -/
structure Passage (σ : Type) where
  answer : Except Problem (Option Decision)
  progress : Progress σ
  store : Store

namespace Login

variable {σ : Type}

/-- The answer of a login whose settings are known. -/
def perform (purpose : Purpose) (world : Surroundings σ) (handler : Handler) (settings : Settings)
    (visit : Visit) : Except Problem (Option Decision) × Progress σ :=
  match purpose with
  | .decide =>
    let (answer, p) := authorize world handler settings visit
    (answer.map some, p)
  | .describe =>
    let p := describe world handler settings visit
    (match p.problem with
      | some problem => .error problem
      | none => .ok none, p)

/-- What was noted before a login began comes first. -/
def precede (notices : List Notice) (p : Progress σ) : Progress σ :=
  { p with trace := notices.map (fun n ↦ ⟨0, .noticed n⟩) ++ p.trace }

/-- A login by the given settings, or else by those of the handler. -/
def pass (store : Store) (purpose : Purpose) (world : Surroundings σ) (handler : Handler)
    (given : Option Settings) (visit : Visit) : Passage σ :=
  let access := Handler.settingsOr (given <|> handler.pinned) store
  match access.answer with
  | .ok settings =>
    let (answer, p) := perform purpose world handler settings visit
    { answer, progress := precede access.notices p, store := access.store }
  | .error f =>
    let p : Progress σ :=
      { time := 0, state := world.state, user := visit.user, claims := visit.claims }
    { answer := .error (.fault f), progress := precede access.notices (p.stop (.fault f))
      store := access.store }

end Login

structure Gate where
  store : Store := {}
  metrics : Metrics := {}
  handlers : List (String × Handler) := []

namespace Gate

variable {σ : Type}

/-- Makes a handler under a name; if that fails, one that was there before stays. -/
def openHandler (gate : Gate) (name : String) (pinned : Option Settings) (preparer : Preparer) :
    Store.Access Handler × Gate :=
  let access := Handler.make pinned preparer gate.store
  let gate := { gate with store := access.store }
  match access.answer with
  | .ok handler => (access, { gate with handlers := Entries.set gate.handlers name handler })
  | .error _ => (access, gate)

def handler? (gate : Gate) (name : String) : Option Handler :=
  gate.handlers.lookup name

/-- A login through a handler; its counts are added to the counters. -/
def login (gate : Gate) (purpose : Purpose) (world : Surroundings σ) (handler : Handler)
    (given : Option Settings) (visit : Visit) : Passage σ × Gate :=
  let passage := Login.pass gate.store purpose world handler given visit
  (passage, { gate with
    store := passage.store, metrics := passage.progress.trace.addTo gate.metrics })

end Gate

end Admission
