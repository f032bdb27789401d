import Admission.Text.Quoted

/-!
Groups that a team whitelist may name: an organization, or a team inside one. The entry of a team is
written with a slash between the two names, and names are neither empty nor hold slashes.
-/

set_option autoImplicit false
set_option relaxedAutoImplicit false

namespace Admission

inductive Group
  | organization (org : String)
  | team (org team : String)
  deriving DecidableEq

namespace Group

/-- The group that an entry names. -/
def ofEntry? (entry : String) : Option Group :=
  match entry.toList.splitOn '/' with
  | [org] => if org.isEmpty then none else some (organization (String.ofList org))
  | [org, name] =>
    if org.isEmpty || name.isEmpty then none
    else some (team (String.ofList org) (String.ofList name))
  | _ => none

def entry : Group → String
  | organization org => org
  | team org name => org ++ "/" ++ name

/-- The word for the kind of a group. -/
def kind : Group → String
  | organization _ => "org"
  | team _ _ => "team"

/-- What is said of an entry that names no group. -/
def malformedMessage (entry : String) : String :=
  s!"Invalid org/team format in {Text.quoted entry}: must be written as <org>/<team>"

end Group

end Admission
