import Admission.Fault
import Admission.Journal.Interpolation
import Admission.Journal.Level
import Admission.Json.Writer

/-!
Entries of the journal and the lines that they are written as: plain text, or an object in
JavaScript object notation that also holds the further fields of the entry.
-/

set_option autoImplicit false
set_option relaxedAutoImplicit false

namespace Admission.Journal

/-- An entry. Its time counts milliseconds since the beginning of 1970. -/
structure Entry where
  logger : String
  level : Int
  message : String
  arguments : List Value := []
  extra : Fields := []
  time : Int

/-- The names of an entry's own attributes, which no further field may have. -/
def reservedNames : List String := [
  "name", "msg", "args", "levelname", "levelno", "pathname", "filename", "module", "exc_info",
  "exc_text", "stack_info", "lineno", "funcName", "created", "msecs", "relativeCreated", "thread",
  "threadName", "processName", "process", "message", "asctime"]

/-- Refuses an entry with a further field of a reserved name. -/
def Entry.check (e : Entry) : Except Fault Unit :=
  match e.extra.find? fun field ↦ reservedNames.contains field.1 with
  | some field => .error (.reservedField field.1)
  | none => .ok ()

/-- Date and time of day in universal time, with milliseconds behind a comma. -/
def timeText (millis : Int) : String :=
  let seconds := Int.fdiv millis 1000
  let date := Date.ofEpochDay (Int.fdiv seconds 86400)
  let clock := ClockTime.ofMicros ((Int.fmod seconds 86400).toNat * 1000000)
  Moment.dateText date ++ " " ++ Moment.clockText clock ++ "," ++
    padded 3 (Int.fmod millis 1000).toNat

/-- The message with its arguments; none if they do not fit. -/
def Entry.text? (e : Entry) : Option String :=
  interpolate? e.message e.arguments

inductive Layout
  | plain
  | json
  deriving DecidableEq, Repr

namespace Layout

/-- The layout of a name in any case; every name but one stands for plain text. -/
def ofName (name : String) : Layout :=
  if Text.lower name = "json" then json else plain

def resolve (given environment : Option String) : Layout :=
  ((preferGiven given environment).map ofName).getD plain

def plainLine (e : Entry) (text : String) : String :=
  s!"{timeText e.time} {levelText e.level} [{e.logger}] {text}"

/-- The fields of an entry's object. Further fields replace those of the same name, and one whose
name begins with an underscore is left out. -/
def fields (e : Entry) (text : String) : Fields :=
  Entries.update [
    ("timestamp", .str (timeText e.time)),
    ("level", .str (levelText e.level)),
    ("name", .str e.logger),
    ("message", .str text)]
    (e.extra.filter fun field ↦ field.1.toList.head? != some '_')

/-- The line of an entry; none if its arguments do not fit. -/
def line? (layout : Layout) (e : Entry) : Option String :=
  e.text?.map fun text ↦
    match layout with
    | plain => plainLine e text
    | json => Json.write (.map (fields e text))

end Layout

end Admission.Journal
