import Admission.Proofs.Pool.Calls

/-!
# For how long the slots of a pool are held

A pool records when its jobs got their slots and when they gave them back. `taken` counts those that
got one by some instant and did not give it back by then. What happens next is only entered at its
own instant, and so it changes nothing about what was taken before; from now on the taken slots are
those of the jobs that hold them (`taken_of_now_le`). So there are never more than there are slots
(`Leads.taken_le`).

`tenures` lists for how long the slots were held, in the order in which they were given away. If no
job is left, all of them have been given back (`Leads.exists_until`).
-/

set_option autoImplicit false
set_option relaxedAutoImplicit false

namespace Admission.Pool

variable {σ α β : Type} {rules : Rules σ β} {pool after : Pool σ α β} {last : Option Rat}
  {now : Rat} {state : σ} {jobs : List (Job α β)}

/-! ### The slots that are taken -/

/-- A job got its slot by some instant and did not give it back by then. -/
def isHeld (pool : Pool σ α β) (time : Rat) (b : Stamp) : Bool :=
  b.time ≤ time && !pool.released.any fun r ↦ r.position == b.position && r.time ≤ time

/-- How many slots are taken at some instant. -/
def taken (pool : Pool σ α β) (time : Rat) : Nat :=
  pool.begun.countP (pool.isHeld time)

theorem PlacedBeside.length_holders {count : Nat} (h : Placed rules count pool) :
    (Pool.holders pool.unfinished).length + pool.free = rules.slots := by
  have hlength := h.holders.length_eq
  have hslots := h.slots
  simp only [List.nil_append, List.length_append, List.length_map] at hlength
  omega

/-- From now on the slots that are taken are those of the jobs that hold them. -/
theorem taken_of_now_le {count : Nat} (h : Placed rules count pool) (hpast : Past pool)
    (hnodup : (pool.begun.map Stamp.position).Nodup) {time : Rat} (htime : pool.now ≤ time) :
    pool.taken time = (holders pool.unfinished).length := by
  have hheld : ∀ b ∈ pool.begun, (pool.isHeld time b = true ↔
      ((!(pool.released.map Stamp.position).contains ·) ∘ Stamp.position) b = true) := by
    intro b hb
    have hbegun : b.time ≤ time := (hpast.begun b hb).trans htime
    have hreleased : (pool.released.any fun r ↦ r.position == b.position && r.time ≤ time) =
        (pool.released.map Stamp.position).contains b.position := by
      rw [Bool.eq_iff_iff, List.any_eq_true, List.contains_iff_mem, List.mem_map]
      refine exists_congr fun r ↦ and_congr_right fun hr ↦ ?_
      have hearlier : r.time ≤ time := (hpast.released r hr).trans htime
      simp [hearlier]
    simp [isHeld, hbegun, hreleased]
  have hperm := h.begun_perm
  have hnone : (pool.released.map Stamp.position).countP
      (!(pool.released.map Stamp.position).contains ·) = 0 := by
    rw [List.countP_eq_zero]
    intro i hi
    simpa using hi
  have hall : (holders pool.unfinished).countP (!(pool.released.map Stamp.position).contains ·) =
      (holders pool.unfinished).length := by
    rw [List.countP_eq_length]
    intro i hi
    have hne : i ∉ pool.released.map Stamp.position := fun hreleased ↦
      (List.nodup_append.mp (hperm.nodup_iff.mpr hnodup)).2.2 i hreleased i hi rfl
    rw [Bool.not_eq_true', Bool.eq_false_iff, ne_eq, List.contains_iff_mem]
    exact hne
  unfold taken
  rw [List.countP_congr hheld, ← List.countP_map, ← hperm.countP_eq, List.countP_append, hnone,
    hall, Nat.zero_add]

/-- What is entered now changes nothing about the slots that were taken before. -/
theorem Grows.taken_eq (h : Grows pool after) {time : Rat} (htime : time < after.now) :
    after.taken time = pool.taken time := by
  obtain ⟨begun, hbegun, htimes⟩ := h.begun
  obtain ⟨released, hreleased, hends⟩ := h.released
  have hlate (b : Stamp) :
      (released.any fun r ↦ r.position == b.position && r.time ≤ time) = false := by
    rw [List.any_eq_false]
    intro r hr
    simp [hends r hr, htime]
  have hheld : after.isHeld time = pool.isHeld time := by
    funext b
    simp only [isHeld, hreleased, List.any_append, hlate b, Bool.or_false]
  have hnone : begun.countP (pool.isHeld time) = 0 := by
    rw [List.countP_eq_zero]
    intro b hb
    simp [isHeld, htimes b hb, htime]
  rw [taken, taken, hheld, hbegun, List.countP_append, hnone, Nat.add_zero]

theorem Leads.begun_nodup (h : Leads rules (opened rules last now state jobs) pool) :
    (pool.begun.map Stamp.position).Nodup :=
  h.begun_inOrder.sublist.nodup List.nodup_range

/-- On the whole way of a run, never more slots are taken than there are. -/
theorem Leads.taken_le (h : Leads rules (opened rules last now state jobs) pool) (time : Rat) :
    pool.taken time ≤ rules.slots := by
  induction h with
  | refl =>
    have hbegun : (opened rules last now state jobs).begun = [] := (minds_opened ..).begun
    rw [taken, hbegun]
    exact Nat.zero_le _
  | @tail pool after hleads hnext ih =>
    have hleads : Leads rules (opened rules last now state jobs) pool := hleads
    have hafter : Leads rules (opened rules last now state jobs) after := hleads.tail hnext
    by_cases htime : time < after.now
    · rw [(hleads.ahead.next hnext).1.taken_eq htime]
      exact ih
    · rw [taken_of_now_le hafter.placed hafter.past hafter.begun_nodup (not_lt.mp htime)]
      exact Nat.le.intro hafter.placed.length_holders

/-! ### How long slots are held -/

/-- Jobs got their slots one after the other, and give them back later. -/
structure Ordered (pool : Pool σ α β) : Prop where
  begun : pool.begun.Pairwise fun a b ↦ a.time ≤ b.time
  released : ∀ b ∈ pool.begun, ∀ r ∈ pool.released, r.position = b.position → b.time ≤ r.time

theorem Leads.ordered (h : Leads rules (opened rules last now state jobs) pool) : Ordered pool := by
  induction h with
  | refl =>
    have hbegun : (opened rules last now state jobs).begun = [] := (minds_opened ..).begun
    exact ⟨hbegun ▸ .nil, by rw [hbegun]; exact nofun⟩
  | @tail pool after hleads hnext ih =>
    have hleads : Leads rules (opened rules last now state jobs) pool := hleads
    have hafter : Leads rules (opened rules last now state jobs) after := hleads.tail hnext
    have hgrows : Grows pool after := (hleads.ahead.next hnext).1
    obtain ⟨begun, hbegun, htimes⟩ := hgrows.begun
    obtain ⟨released, hreleased, hends⟩ := hgrows.released
    have hnodup := hafter.begun_nodup
    rw [hbegun, List.map_append] at hnodup
    constructor
    · rw [hbegun, List.pairwise_append]
      refine ⟨ih.begun, ?_, fun a ha b hb ↦ ?_⟩
      · exact List.pairwise_of_forall_mem_list fun a ha b hb ↦
          (htimes a ha).trans_le (htimes b hb).ge
      · exact (hleads.past.begun a ha).trans (hgrows.now.trans (htimes b hb).ge)
    · intro b hb r hr hposition
      rw [hreleased] at hr
      rcases List.mem_append.mp hr with hr | hr
      · rw [hbegun] at hb
        rcases List.mem_append.mp hb with hb | hb
        · exact ih.released b hb r hr hposition
        · -- a job that gave its slot back does not get one again
          have hmem : r.position ∈ pool.begun.map Stamp.position :=
            hleads.placed.begun_perm.subset (List.mem_append_left _ (List.mem_map_of_mem hr))
          exact absurd hposition
            ((List.nodup_append.mp hnodup).2.2 _ hmem _ (List.mem_map_of_mem hb))
      · rw [hends r hr]
        exact hafter.past.begun b hb

/-- A slot that a job held, from the instant at which it got it up to the one at which it gave it
back, if it did. -/
structure Tenure where
  position : Nat
  since : Rat
  until? : Option Rat
  deriving DecidableEq

/-- The slot is held at some instant. -/
def Tenure.lastsAt (tenure : Tenure) (time : Rat) : Bool :=
  tenure.since ≤ time && !Process.isOver tenure.until? time

/-- The slot that a job held in a pool. -/
def tenure (pool : Pool σ α β) (b : Stamp) : Tenure :=
  { position := b.position, since := b.time
    until? := (pool.released.find? fun r ↦ r.position == b.position).map Stamp.time }

/-- The slots that were held in a pool, in the order in which they were given away. -/
def tenures (pool : Pool σ α β) : List Tenure :=
  pool.begun.map pool.tenure

theorem map_position_tenures (pool : Pool σ α β) :
    pool.tenures.map Tenure.position = pool.begun.map Stamp.position := by
  rw [tenures, List.map_map]
  rfl

theorem Leads.released_nodup (h : Leads rules (opened rules last now state jobs) pool) :
    (pool.released.map Stamp.position).Nodup :=
  (List.nodup_append.mp (h.placed.begun_perm.nodup_iff.mpr h.begun_nodup)).1

/-- On the whole way of a run, never more slots are held than there are. -/
theorem Leads.countP_lastsAt_le (h : Leads rules (opened rules last now state jobs) pool)
    (time : Rat) : pool.tenures.countP (Tenure.lastsAt · time) ≤ rules.slots := by
  have hheld (b : Stamp) (hlasts : (pool.tenure b).lastsAt time = true) :
      pool.isHeld time b = true := by
    simp only [Tenure.lastsAt, tenure, Bool.and_eq_true, Bool.not_eq_true'] at hlasts
    obtain ⟨hsince, huntil⟩ := hlasts
    simp only [isHeld, Bool.and_eq_true, Bool.not_eq_true', List.any_eq_false, beq_iff_eq,
      decide_eq_true_eq, not_and, not_le]
    refine ⟨of_decide_eq_true hsince, fun r hr hposition ↦ ?_⟩
    rw [← hposition, find?_eq_of_nodup h.released_nodup hr] at huntil
    simpa [Process.isOver] using huntil
  rw [tenures, List.countP_map]
  exact (List.countP_mono_left fun b _ hlasts ↦ hheld b hlasts).trans (h.taken_le time)

/-- If no job is left, all slots have been given back. -/
theorem Leads.exists_until (h : Leads rules (opened rules last now state jobs) pool)
    (hunfinished : pool.unfinished = []) :
    ∀ slot ∈ pool.tenures,
      ∃ time, slot.until? = some time ∧ slot.since ≤ time ∧ time ≤ pool.now := by
  intro slot hslot
  obtain ⟨b, hb, rfl⟩ := List.mem_map.mp hslot
  have hperm := h.placed.begun_perm
  rw [hunfinished] at hperm
  have hmem : b.position ∈ pool.released.map Stamp.position ++ [] :=
    hperm.mem_iff.mpr (List.mem_map_of_mem hb)
  rw [List.append_nil] at hmem
  obtain ⟨r, hr, hposition⟩ := List.mem_map.mp hmem
  refine ⟨r.time, ?_, h.ordered.released b hb r hr hposition, h.past.released r hr⟩
  unfold tenure
  rw [← hposition, find?_eq_of_nodup h.released_nodup hr]
  rfl

end Admission.Pool
