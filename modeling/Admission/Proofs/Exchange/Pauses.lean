import Admission.Proofs.Exchange.Attempts

/-!
# Runs that end

A process waits for answers, which always come, and for the ends of its pauses. So a run ends unless
it has no last instant (`last_eq_none_of_never`) and comes to a pause that lasts forever
(`PausesEnd.ne_never`). No pause of a query does if the cap on them is finite
(`Query.step_ne_infinite`).
-/

set_option autoImplicit false
set_option relaxedAutoImplicit false

namespace Admission

namespace Process

variable {α σ : Type}

/-- No pause of a process lasts forever, whatever the answers are. -/
def PausesEnd (p : Process α) : Prop :=
  ∃ n, p.Obeys (fun _ ↦ True) (· ≠ .infinite false) n

/-- A pause is over at some instant, unless it lasts forever. -/
theorem wakeAfter_ne_none {now : Rat} {seconds : Binary64} (h : seconds ≠ .infinite false) :
    wakeAfter now seconds ≠ none := by
  rw [wakeAfter, ne_eq, Option.map_eq_none_iff]
  unfold duration?
  split
  · exact absurd rfl h
  · exact nofun

section Endings

variable {r : Responder σ} {last : Option Rat} {now time : Rat} {state : σ} {p : Process α}

/-- A run is stopped only if there is a last instant. -/
theorem last_ne_none_of_stopped (h : (p.run r last now state).ending = .stopped time) :
    last ≠ none := by
  rintro rfl
  induction p generalizing now state with
  | done => cases h
  | notice _ _ ih => exact ih h
  | ask _ _ ih => exact ih _ h
  | pause seconds _ ih =>
    simp only [run] at h
    rcases hwake : wakeAfter now seconds with _ | wake
    · rw [hwake] at h
      cases h
    · rw [hwake] at h
      exact ih h

/-- A run lasts forever only if there is no last instant. -/
theorem last_eq_none_of_never (h : (p.run r last now state).ending = .never time) :
    last = none := by
  induction p generalizing now state with
  | done => cases h
  | notice _ _ ih => exact ih h
  | ask _ _ ih =>
    simp only [run] at h
    split at h
    · cases h
    · exact ih _ h
  | pause seconds _ ih =>
    simp only [run] at h
    split at h
    · split at h
      · cases h
      · exact ih h
    · cases h
    · rfl

/-- A run lasts forever only in a pause that does. -/
theorem PausesEnd.ne_never (hp : p.PausesEnd) : (p.run r last now state).ending ≠ .never time := by
  obtain ⟨n, hp⟩ := hp
  intro h
  induction hp generalizing now state with
  | done => cases h
  | notice _ _ ih => exact ih h
  | ask _ _ ih =>
    simp only [run] at h
    split at h
    · cases h
    · exact ih _ h
  | pause hseconds _ ih =>
    simp only [run] at h
    split at h
    · split at h
      · cases h
      · exact ih h
    · cases h
    · rename_i hforever
      exact absurd hforever (wakeAfter_ne_none hseconds)

end Endings

end Process

namespace Query

variable {settings : ProviderSettings}

/-- A pause is never longer than its cap. -/
theorem delay_ne_infinite {backoff cap seconds : Binary64} {attempt : Int}
    {retryAfter : Option String} (hcap : cap.isFinite = true)
    (h : delay backoff cap attempt retryAfter = .ok seconds) : seconds ≠ .infinite false := by
  unfold delay at h
  split at h
  · cases h
  · rintro rfl
    have hmax := Except.ok.inj h
    generalize (namedSeconds? retryAfter).getD (backoff.mul (.powTwo attempt)) = wanted at hmax
    unfold Binary64.max at hmax
    split at hmax
    · unfold Binary64.min at hmax
      split at hmax
      · rw [hmax] at hcap
        cases hcap
      · rename_i hlt
        refine hlt ?_
        rw [hmax]
        rcases cap with value | _ | negative | _
        · rfl
        · rfl
        · cases hcap
        · cases hcap
    · cases hmax

/-- The pause after an attempt is a computed one. -/
theorem step_ne_infinite {url : String} {asked : Url} {attempt : Nat}
    {received : Except Fault Answer} {n : Notice} {seconds : Binary64}
    (hcap : settings.probeBackoffCap.isFinite = true)
    (h : step settings url asked attempt received = .again n seconds) :
    seconds ≠ .infinite false := by
  rcases hpasses : isPassing received with _ | _
  · rw [step_settled settings url asked attempt hpasses] at h
    cases h
  · rw [step_passing settings url asked attempt hpasses] at h
    rcases hdelay : delayFor settings attempt (retryAfter? received) with f | s
    · rw [hdelay] at h
      cases h
    · rw [hdelay] at h
      cases h
      exact delay_ne_infinite hcap hdelay

end Query

end Admission
