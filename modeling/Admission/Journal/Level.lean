import Admission.Text.Case

/-!
Levels of importance. Six of them have names; two further names are accepted for them.
-/

set_option autoImplicit false
set_option relaxedAutoImplicit false

namespace Admission.Journal

/-- The levels by name. The first name of a level is the one that it is shown with. -/
def levelNames : List (String × Int) := [
  ("CRITICAL", 50), ("FATAL", 50), ("ERROR", 40), ("WARNING", 30), ("WARN", 30), ("INFO", 20),
  ("DEBUG", 10), ("NOTSET", 0)]

/-- The level of a name in any case. -/
def level? (name : String) : Option Int :=
  levelNames.lookup (Text.upperAscii name)

def warning : Int := 30

/-- The level that counts where no known one is named. -/
def defaultLevel : Int := 20

/-- The text that a level is shown with. -/
def levelText (level : Int) : String :=
  match levelNames.find? fun n ↦ n.2 == level with
  | some n => n.1
  | none => s!"Level {level}"

/-- What is given, unless it is empty or missing, or else what the environment says. -/
def preferGiven (given environment : Option String) : Option String :=
  match given.filter fun s ↦ !s.isEmpty with
  | some s => some s
  | none => environment.filter fun s ↦ !s.isEmpty

/-- The level to begin with. -/
def resolveLevel (given environment : Option String) : Int :=
  ((preferGiven given environment).bind level?).getD defaultLevel

end Admission.Journal
