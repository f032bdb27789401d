import Admission.Exchange.Timeline

/-!
# What traces count

What is counted is counted when a probe or a login ends: a process asks, pauses and gives notices,
and so nothing is counted while it runs (`Process.counts_settle`, `Process.counts_run`).
-/

set_option autoImplicit false
set_option relaxedAutoImplicit false

namespace Admission

/-- What is counted among some occurrences. -/
def Occurrence.counts (whats : List Occurrence) : List Count :=
  whats.filterMap fun
    | .counted c => some c
    | _ => none

namespace Trace

theorem counts_append (before after : Trace) :
    counts (before ++ after) = counts before ++ counts after :=
  List.filterMap_append

/-- Occurrences at one instant count what they count. -/
theorem counts_map (whats : List Occurrence) (time : Rat) :
    counts (whats.map fun what ↦ ⟨time, what⟩) = Occurrence.counts whats := by
  unfold counts
  rw [List.filterMap_map]
  rfl

/-- Notices are not counted. -/
theorem counts_notices (notices : List Notice) (time : Rat) :
    counts (notices.map fun n ↦ ⟨time, .noticed n⟩) = [] := by
  unfold counts
  rw [List.filterMap_map, List.filterMap_eq_nil_iff]
  intro n _
  rfl

end Trace

namespace Process

variable {α σ : Type}

/-- Nothing is counted up to the next wait. -/
theorem counts_settle (r : Responder σ) (now : Rat) (state : σ) (p : Process α) :
    (p.settle r now state).trace.counts = [] := by
  induction p generalizing state with
  | done result => rfl
  | notice _ _ ih => exact ih state
  | ask request next ih =>
    simp only [settle]
    split
    · exact ih _ _
    · rfl
  | pause seconds rest => rfl

/-- Nothing is counted in a whole run. -/
theorem counts_run (r : Responder σ) (last : Option Rat) (now : Rat) (state : σ)
    (p : Process α) : (p.run r last now state).trace.counts = [] := by
  induction p generalizing now state with
  | done result => rfl
  | notice _ _ ih => exact ih now state
  | ask request next ih =>
    simp only [run]
    split
    · rfl
    · exact ih _ _ _
  | pause seconds rest ih =>
    simp only [run]
    rcases wakeAfter now seconds with _ | wake
    · cases last <;> rfl
    · dsimp only
      split
      · rfl
      · exact ih _ _

end Process

end Admission
