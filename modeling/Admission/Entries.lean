/-!
Entries by name in the order in which the names first came.
-/

set_option autoImplicit false
set_option relaxedAutoImplicit false

namespace Admission.Entries

variable {α : Type}

/-- Sets the value under a name; a name that is already there keeps its place. -/
def set (entries : List (String × α)) (name : String) (value : α) : List (String × α) :=
  match entries with
  | [] => [(name, value)]
  | (n, v) :: rest => if n = name then (n, value) :: rest else (n, v) :: set rest name value

/-- Sets all names of the second list, in its order. -/
def update (entries more : List (String × α)) : List (String × α) :=
  more.foldl (fun all e ↦ set all e.1 e.2) entries

def erase (entries : List (String × α)) (name : String) : List (String × α) :=
  entries.filter fun e ↦ e.1 != name

end Admission.Entries
