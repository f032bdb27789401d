import Admission.Notice
import Admission.Settings.Environment

/-!
The settings in force. The store keeps the environment, the configuration read from it last, and the
settings published last. Reading settings publishes them at the first use, and a reset reads the
environment anew; what fails leaves the published settings as they are.
-/

set_option autoImplicit false
set_option relaxedAutoImplicit false

namespace Admission

structure Store where
  environment : Environment := []
  configuration : Option Configuration := none
  published : Option Settings := none

namespace Store

/-- What an access to the store answers, the notices it gives, and the store afterwards. -/
structure Access (α : Type) where
  answer : Except Fault α
  notices : List Notice := []
  store : Store

def setVariable (store : Store) (name : String) (value : Option String) : Store :=
  { store with environment := store.environment.assign name value }

/-- Forgets the configuration, so that the next access reads the environment. -/
def forget (store : Store) : Store :=
  { store with configuration := none }

/-- The configuration, read from the environment if it is not kept or is asked to be fresh. -/
def configure (store : Store) (refresh : Bool) : Access Configuration :=
  let store := if refresh then store.forget else store
  match store.configuration with
  | some c => { answer := .ok c, store }
  | none =>
    match store.environment.configuration with
    | .ok c => { answer := .ok c, store := { store with configuration := some c } }
    | .error f => { answer := .error f, store }

/-- Team entries say nothing about users of a provider without teams. -/
def unusedTeams (settings : Settings) : List Notice :=
  if !settings.whitelist.teams.isEmpty && settings.provider.name != Provider.github.name then
    [.teamsUnused settings.provider.name]
  else []

/-- The settings of the configuration; they are not published. -/
def load (store : Store) (refresh : Bool) : Access Settings :=
  let read := store.configure refresh
  match read.answer with
  | .error f => { answer := .error f, store := read.store }
  | .ok c =>
    match c.settings with
    | .error f => { answer := .error f, store := read.store }
    | .ok s => { answer := .ok s, notices := unusedTeams s, store := read.store }

def publish (store : Store) (settings : Settings) : Store :=
  { store with published := some settings }

/-- Publishes what was loaded, if loading succeeded. -/
def Access.publish (loaded : Access Settings) : Access Settings :=
  match loaded.answer with
  | .ok s => { loaded with store := loaded.store.publish s }
  | .error _ => loaded

/-- Reads the environment anew and publishes the settings. -/
def reset (store : Store) : Access Settings :=
  (store.load true).publish

/-- The published settings; the first use loads and publishes them, and so does a refresh. -/
def get (store : Store) (refresh : Bool) : Access Settings :=
  if refresh then store.reset
  else
    match store.published with
    | some s => { answer := .ok s, store }
    | none => (store.load false).publish

end Store

end Admission
