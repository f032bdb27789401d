import Admission.Exchange.Timeline
import Admission.Membership
import Admission.Probe.Question

/-!
Probing one entry of a team whitelist. The answer is one of three: a membership, none, or a failure;
running out of time is a failure as well. An entry that names no group is no membership, and nothing
is asked about it.
-/

set_option autoImplicit false
set_option relaxedAutoImplicit false

namespace Admission.Probe

/-- The time that an entry may take in seconds; none if it is unlimited. -/
def budget (settings : ProviderSettings) : Option Rat :=
  duration? settings.probeTimeout

/-- The standing that an answer stands for; no answer means that the time was used up. -/
def standing (settings : ProviderSettings) (entry : String) :
    Option (Except Problem Bool) → Except Fault Standing
  | none => .ok (.failed (.timedOut entry settings.probeTimeout))
  | some (.ok isMember) => .ok (.ofAnswer isMember)
  | some (.error (.failure f)) => .ok (.failed f)
  | some (.error (.fault f)) => .error f

/-- What is noted once the standing is known. -/
def closingNotes (username entry : String) (group : Group) (s : Standing) : List Occurrence :=
  .counted (.probe group.kind s.name) ::
    match s with
    | .failed error => [.noticed (.checkFailed error entry username)]
    | _ => []

/-- What the end of a question means for an entry. A fault is passed on. -/
def conclude (settings : ProviderSettings) (username entry : String) (group : Group)
    (answer : Option (Except Problem Bool)) : List Occurrence × Except Fault Membership :=
  match standing settings entry answer with
  | .ok s => (closingNotes username entry group s, .ok ⟨entry, s⟩)
  | .error f => ([], .error f)

/-- The answer about an entry that names no group. -/
def malformed (entry : String) : List Occurrence × Except Fault Membership :=
  ([.noticed (.malformedEntry entry)], .ok ⟨entry, .notMember⟩)

end Admission.Probe
