import Admission.Exchange.Timeline
import Mathlib.Algebra.Order.Ring.Rat
import Mathlib.Tactic.Linarith

/-!
# The clock, and deadlines

Waiting never turns the clock back: what a process does up to its next wait happens now, and all
that a run does happens now or later.

A run with a deadline is the beginning of the whole run. If the whole run is finished before the
deadline, the two are the same (`run_of_finished`). In all other cases the run is stopped at the
deadline, and what it did until then is what the whole run does before that instant
(`stopped_of_late`). The inductions are on the process, with the deadline fixed and the clock going
on.
-/

set_option autoImplicit false
set_option relaxedAutoImplicit false

namespace Admission

theorem lasting_nonneg (seconds : Rat) : 0 ≤ lasting seconds := by
  unfold lasting
  split
  · exact le_refl 0
  · rename_i hseconds
    exact not_lt.mp hseconds

theorem duration?_nonneg {seconds : Binary64} {d : Rat} (h : duration? seconds = some d) :
    0 ≤ d := by
  unfold duration? at h
  split at h
  · cases h
  · cases h
    exact lasting_nonneg _

/-- A wait that begins now is over now or later. -/
theorem wakeAfter_le {now wake : Rat} {seconds : Binary64} (h : wakeAfter now seconds = some wake) :
    now ≤ wake := by
  obtain ⟨d, hd, rfl⟩ := Option.map_eq_some_iff.mp h
  exact le_add_of_nonneg_right (duration?_nonneg hd)

theorem Delivery.le_arrival (d : Delivery) (now : Rat) : now ≤ d.arrival now :=
  le_add_of_nonneg_right (lasting_nonneg d.delay)

/-- An answer that is there at once arrives now. -/
theorem Delivery.arrival_of_isAtOnce {d : Delivery} (h : d.isAtOnce = true) (now : Rat) :
    d.arrival now = now := by
  simp only [Delivery.isAtOnce, Bool.and_eq_true, decide_eq_true_eq] at h
  unfold Delivery.arrival lasting
  split
  · exact add_zero now
  · rename_i hdelay
    rw [le_antisymm h.1 (not_lt.mp hdelay), add_zero]

namespace Process

variable {α σ : Type}

/-- A process that waits wakes now or later. -/
theorem le_wake {r : Responder σ} {now wake : Rat} {turns : Nat} {state : σ} {p rest : Process α}
    (h : (p.settle r now state).left = .waiting (some wake) turns rest) : now ≤ wake := by
  induction p generalizing state with
  | done result => cases h
  | notice n p ih => exact ih h
  | ask request next ih =>
    simp only [Process.settle] at h
    split at h
    · exact ih _ h
    · simp only [Settled.waiting.injEq, Option.some.injEq] at h
      exact h.1 ▸ Delivery.le_arrival _ _
  | pause seconds p =>
    simp only [Process.settle, Settled.waiting.injEq] at h
    exact wakeAfter_le h.1

/-- What a process does up to its next wait happens now. -/
theorem time_of_mem_settle {r : Responder σ} {now : Rat} {state : σ} {p : Process α} {x : Event}
    (h : x ∈ (p.settle r now state).trace) : x.time = now := by
  induction p generalizing state with
  | done result => cases h
  | notice n p ih =>
    rcases List.mem_cons.mp h with rfl | h
    · rfl
    · exact ih h
  | ask request next ih =>
    simp only [Process.settle] at h
    split at h
    · rcases List.mem_cons.mp h with rfl | h
      · rfl
      · exact ih _ h
    · rw [List.mem_singleton.mp h]
  | pause seconds p => cases h

section Run

variable {r : Responder σ} {now : Rat} {state : σ} {p : Process α}

/-- Everything that a run does happens now or later. -/
theorem le_time_of_mem_run {last : Option Rat} {x : Event}
    (h : x ∈ (p.run r last now state).trace) : now ≤ x.time := by
  induction p generalizing now state with
  | done result => cases h
  | notice n rest ih =>
    rcases List.mem_cons.mp h with rfl | h
    · exact le_refl now
    · exact ih h
  | ask request next ih =>
    simp only [run] at h
    split at h
    · rw [List.mem_singleton.mp h]
    · rcases List.mem_cons.mp h with rfl | h
      · exact le_refl now
      · exact (Delivery.le_arrival _ _).trans (ih _ h)
  | pause seconds rest ih =>
    simp only [run] at h
    rcases hwake : wakeAfter now seconds with _ | wake
    · rw [hwake] at h
      cases last <;> cases h
    · rw [hwake] at h
      dsimp only at h
      split at h
      · cases h
      · exact (wakeAfter_le hwake).trans (ih h)

/-- A run is finished now or later. -/
theorem le_of_finished {last : Option Rat} {t : Rat} {a : α}
    (h : (p.run r last now state).ending = .finished t a) : now ≤ t := by
  induction p generalizing now state with
  | done result =>
    cases h
    exact le_refl _
  | notice n rest ih => exact ih h
  | ask request next ih =>
    simp only [run] at h
    split at h
    · cases h
    · exact (Delivery.le_arrival _ _).trans (ih _ h)
  | pause seconds rest ih =>
    simp only [run] at h
    rcases hwake : wakeAfter now seconds with _ | wake
    · rw [hwake] at h
      cases last <;> cases h
    · rw [hwake] at h
      dsimp only at h
      split at h
      · cases h
      · exact (wakeAfter_le hwake).trans (ih h)

/-- A deadline does not matter to a run that is finished before it. -/
theorem run_of_finished {t d : Rat} {a : α} (h : (p.run r none now state).ending = .finished t a)
    (ht : t < d) : p.run r (some d) now state = p.run r none now state := by
  induction p generalizing now state with
  | done result => rfl
  | notice n rest ih => exact congrArg (Run.after _) (ih h)
  | ask request next ih =>
    have hrest : ((next (r.respond now state request).1.answer).run r none
        ((r.respond now state request).1.arrival now) (r.respond now state request).2).ending =
          .finished t a := h
    have hwake : ¬d ≤ (r.respond now state request).1.arrival now :=
      not_le.mpr ((le_of_finished hrest).trans_lt ht)
    simp only [run, isOver, hwake, decide_false, Bool.false_and, Bool.false_eq_true, if_false]
    exact congrArg (Run.after _) (ih _ hrest)
  | pause seconds rest ih =>
    simp only [run] at h ⊢
    rcases hwake : wakeAfter now seconds with _ | wake
    · rw [hwake] at h
      cases h
    · rw [hwake] at h
      have hrest : (rest.run r none wake state).ending = .finished t a := h
      have hlate : ¬d ≤ wake := not_le.mpr ((le_of_finished hrest).trans_lt ht)
      simp only [isOver, hlate, decide_false, Bool.false_eq_true, if_false]
      exact ih hrest

/-- A run that begins at some instant or later does nothing before it. -/
theorem filter_trace_run (r : Responder σ) (last : Option Rat) {now d : Rat} (state : σ)
    (p : Process α) (h : d ≤ now) : (p.run r last now state).trace.filter (·.time < d) = [] := by
  rw [List.filter_eq_nil_iff]
  intro x hx
  simpa using h.trans (le_time_of_mem_run hx)

/-- A run that would not be finished before the deadline is stopped then, after all that the whole
run does before that instant. -/
theorem stopped_of_late {d : Rat} (hnow : now < d)
    (hlate : ∀ t a, (p.run r none now state).ending = .finished t a → d ≤ t) :
    (p.run r (some d) now state).ending = .stopped d ∧
      (p.run r (some d) now state).trace =
        (p.run r none now state).trace.filter (·.time < d) := by
  induction p generalizing now state with
  | done result => exact absurd (hlate now result rfl) (not_le.mpr hnow)
  | notice n rest ih =>
    obtain ⟨hending, htrace⟩ := ih hnow hlate
    refine ⟨hending, ?_⟩
    simp only [run, Run.after, htrace, List.filter_cons, hnow, decide_true, if_true]
  | ask request next ih =>
    by_cases hwake : d ≤ (r.respond now state request).1.arrival now
    · -- the answer comes too late, and so does everything after it
      have hnone := filter_trace_run r none (r.respond now state request).2
        (next (r.respond now state request).1.answer) hwake
      have hwaits : (r.respond now state request).1.isAtOnce = false :=
        Bool.eq_false_iff.mpr fun hatOnce ↦
          absurd (Delivery.arrival_of_isAtOnce hatOnce now ▸ hwake) (not_le.mpr hnow)
      simp only [run, isOver, hwake, hwaits, Bool.not_false, Bool.and_self, decide_true, if_true,
        Option.getD_some, Run.after, Bool.false_and, Bool.false_eq_true, if_false, List.filter_cons,
        hnow, hnone, and_self]
    · have hrest := @ih (r.respond now state request).1.answer _
        (r.respond now state request).2 (not_le.mp hwake) hlate
      simp only [run, isOver, hwake, decide_false, Bool.false_and, Bool.false_eq_true, if_false,
        Run.after, List.filter_cons, hnow, decide_true, if_true, hrest, and_self]
  | pause seconds rest ih =>
    simp only [run] at hlate ⊢
    rcases hwake : wakeAfter now seconds with _ | wake
    · exact ⟨rfl, rfl⟩
    · rw [hwake] at hlate
      by_cases hover : d ≤ wake
      · have hnone := filter_trace_run r none state rest hover
        simp only [isOver, hover, decide_true, if_true, Option.getD_some, Bool.false_eq_true,
          if_false, hnone, and_self]
      · simp only [isOver, hover, decide_false, Bool.false_eq_true, if_false]
        exact ih (not_le.mp hover) hlate

end Run

end Process

end Admission
