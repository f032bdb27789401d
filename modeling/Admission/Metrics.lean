import Admission.Entries
import Admission.Number.Binary64

/-!
Counters: a running total for each name and each set of tags. Tags are identified by their text, in
which they are sorted by key.
-/

set_option autoImplicit false
set_option relaxedAutoImplicit false

namespace Admission

/-- Tags by key. -/
abbrev Tags := List (String × String)

/-- The text of tags: pairs of key and value in ascending order of the keys. -/
def Tags.text (tags : Tags) : String :=
  let sorted := tags.mergeSort fun a b ↦ !decide (b.1 < a.1)
  String.intercalate "," (sorted.map fun t ↦ t.1 ++ "=" ++ t.2)

/-- Totals by name and text of tags, in the order of first entry. -/
structure Metrics where
  totals : List ((String × String) × Binary64) := []

namespace Metrics

/-- Adds to the total under a key, which begins at zero. -/
def addTo (totals : List ((String × String) × Binary64)) (key : String × String)
    (value : Binary64) : List ((String × String) × Binary64) :=
  match totals with
  | [] => [(key, Binary64.zero.add value)]
  | (k, total) :: rest =>
    if k = key then (k, total.add value) :: rest else (k, total) :: addTo rest key value

def record (m : Metrics) (name : String) (tags : Tags) (value : Binary64) : Metrics :=
  { totals := addTo m.totals (name, tags.text) value }

def increment (m : Metrics) (name : String) (tags : Tags) : Metrics :=
  m.record name tags (Binary64.ofInt 1)

/-- Forgets all totals. -/
def clear (_ : Metrics) : Metrics :=
  {}

/-- The totals by name, and under each name by the text of the tags. -/
def summary (m : Metrics) : List (String × List (String × Binary64)) :=
  m.totals.foldl (fun groups t ↦
    Entries.set groups t.1.1 (Entries.set ((groups.lookup t.1.1).getD []) t.1.2 t.2)) []

end Metrics

/-- Something that is counted. -/
inductive Count
  /-- A probe of an entry came to a result. -/
  | probe (kind result : String)
  /-- A login came to a decision, or could not be decided. -/
  | decision (result : String)
  deriving DecidableEq

def Count.name : Count → String
  | probe _ _ => "gatepass.membership_probe"
  | decision _ => "gatepass.authorization"

def Count.tags : Count → Tags
  | probe kind result => [("kind", kind), ("result", result)]
  | decision result => [("result", result)]

def Metrics.add (m : Metrics) (c : Count) : Metrics :=
  m.increment c.name c.tags

end Admission
