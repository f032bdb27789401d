import Admission.Journal.Layout

/-!
The journal: two loggers, for the library itself and for its client, with their levels and handlers.
Setting the journal up puts one handler of its own behind those of others, in place of the ones that
it put there before.
-/

set_option autoImplicit false
set_option relaxedAutoImplicit false

namespace Admission.Journal

/-- A handler of the journal itself, or one that others installed. Handlers with the same layout are
told apart by the numbers that they are made with. -/
inductive Handler
  | own {number : Nat} (layout : Layout)
  | foreign (label : Nat)
  deriving DecidableEq, Repr

def Handler.isOwn : Handler → Bool
  | own _ => true
  | foreign _ => false

structure Logger where
  level : Int := 0
  handlers : List Handler := []
  deriving DecidableEq, Repr

/-- Takes a handler away, if it is there. -/
def Logger.remove (logger : Logger) (h : Handler) : Logger :=
  { logger with handlers := logger.handlers.erase h }

/-- Takes the journal's own handlers away, one after the other, and sets the level. -/
def Logger.reset (logger : Logger) (level : Int) : Logger :=
  let rest := logger.handlers.foldl
    (fun rest h ↦ if h.isOwn then rest.remove h else rest) logger
  { rest with level }

/-- Puts a handler behind the others, unless it is there already. -/
def Logger.install (logger : Logger) (h : Handler) : Logger :=
  if logger.handlers.contains h then logger
  else { logger with handlers := logger.handlers ++ [h] }

end Journal

open Journal in
structure Journal where
  library : Logger := {}
  client : Logger := {}
  /-- The number of handlers made so far. -/
  made : Nat := 0
  deriving DecidableEq, Repr

namespace Journal

def libraryName : String := "gatepass"

def clientName : String := "httpx"

/-- Sets the journal up with a new handler, which is returned. -/
def setUp (journal : Journal) (level : Int) (layout : Layout) : Handler × Journal :=
  let h := @Handler.own journal.made layout
  (h, { library := (journal.library.reset level).install h
        client := journal.client.reset level
        made := journal.made + 1 })

/-- Sets the journal up by what is given, or else by the environment, and returns the new
handler. -/
def setUpBy (journal : Journal) (level layout : Option String)
    (levelVariable layoutVariable : Option String) : Handler × Journal :=
  journal.setUp (resolveLevel level levelVariable) (Layout.resolve layout layoutVariable)

/-- The journal set up by what is given, or else by the environment. -/
def configure (journal : Journal) (level layout : Option String)
    (levelVariable layoutVariable : Option String) : Journal :=
  (journal.setUpBy level layout levelVariable layoutVariable).2

/-- Installs the handler of others at the library's logger. -/
def adopt (journal : Journal) (label : Nat) : Journal :=
  { journal with library := journal.library.install (.foreign label) }

/-- The full name of a logger; the library's logger is the one without a name. -/
def loggerName (name : String) : String :=
  if name.isEmpty then libraryName else name

/-- A name stands for a logger or for one below it. -/
def isWithin (name logger : String) : Bool :=
  name = logger || (logger ++ ".").toList.isPrefixOf name.toList

/-- The logger that a name belongs to. -/
def loggerOf? (journal : Journal) (name : String) : Option Logger :=
  if isWithin name libraryName then some journal.library
  else if isWithin name clientName then some journal.client
  else none

/-- The least level that is written under a name; it is that of warnings unless it was set. -/
def threshold (journal : Journal) (name : String) : Int :=
  match journal.loggerOf? name with
  | some logger => if logger.level = 0 then warning else logger.level
  | none => warning

def handlersOf (journal : Journal) (name : String) : List Handler :=
  (journal.loggerOf? name).elim [] Logger.handlers

/-- What a handler writes; those of others write elsewhere. -/
def Handler.write (h : Handler) (e : Entry) : String :=
  match h with
  | own layout => (layout.line? e).elim "" (· ++ "\n")
  | foreign _ => ""

/-- What is written where nobody handles an entry: the message alone, from warnings on. -/
def lastResort (e : Entry) : String :=
  if e.level < warning then "" else e.text?.elim "" (· ++ "\n")

/-- What is written for an entry. -/
def write (journal : Journal) (e : Entry) : String :=
  if e.level < journal.threshold e.logger then ""
  else
    match journal.handlersOf e.logger with
    | [] => lastResort e
    | handlers => String.join (handlers.map (·.write e))

end Journal

end Admission
