import Admission.Entries
import Mathlib.Data.List.Nodup

/-!
# Entries by name

Setting a value keeps the names, in their order, and adds the one that it sets if it is new
(`map_fst_set`). Under that name the value is found afterwards, and under the others what was found
before (`lookup_set_self`, `lookup_set_of_ne`).
-/

set_option autoImplicit false
set_option relaxedAutoImplicit false

namespace Admission.Entries

variable {α : Type}

/-- A new name stands behind the others. -/
theorem set_of_notMem {entries : List (String × α)} {name : String} (value : α)
    (h : name ∉ entries.map Prod.fst) : set entries name value = entries ++ [(name, value)] := by
  induction entries with
  | nil => rfl
  | cons e entries ih =>
    simp only [List.map_cons, List.mem_cons, not_or] at h
    unfold set
    rw [if_neg (Ne.symm h.1), ih h.2, List.cons_append]

/-- Setting a value keeps the names, and adds the one that it sets if it is new. -/
theorem map_fst_set (entries : List (String × α)) (name : String) (value : α) :
    (set entries name value).map Prod.fst =
      if name ∈ entries.map Prod.fst then entries.map Prod.fst
      else entries.map Prod.fst ++ [name] := by
  induction entries with
  | nil => rfl
  | cons e entries ih =>
    unfold set
    by_cases hname : e.1 = name
    · simp [hname]
    · rw [if_neg hname, List.map_cons, ih, List.map_cons]
      by_cases hmem : name ∈ entries.map Prod.fst
      · simp only [List.mem_cons, hmem, or_true, if_true]
      · simp only [List.mem_cons, hmem, Ne.symm hname, or_self, if_false, List.cons_append]

/-- Setting a value keeps names distinct. -/
theorem nodup_set {entries : List (String × α)} (name : String) (value : α)
    (h : (entries.map Prod.fst).Nodup) : ((set entries name value).map Prod.fst).Nodup := by
  rw [map_fst_set]
  split
  · exact h
  · rename_i hnew
    exact List.nodup_append.mpr ⟨h, List.nodup_singleton name, fun a ha b hb hab ↦
      hnew (List.mem_singleton.mp hb ▸ hab ▸ ha)⟩

theorem nodup_update {entries : List (String × α)} (more : List (String × α))
    (h : (entries.map Prod.fst).Nodup) : ((update entries more).map Prod.fst).Nodup := by
  unfold update
  induction more generalizing entries with
  | nil => exact h
  | cons e more ih => exact ih (nodup_set e.1 e.2 h)

/-- Distinct new names all stand behind the others. -/
theorem update_of_nodup {entries more : List (String × α)}
    (h : ((entries ++ more).map Prod.fst).Nodup) : update entries more = entries ++ more := by
  unfold update
  induction more generalizing entries with
  | nil => exact (List.append_nil entries).symm
  | cons e more ih =>
    have hnew : e.1 ∉ entries.map Prod.fst := by
      rw [List.map_append, List.map_cons] at h
      intro hmem
      exact (List.nodup_append.mp h).2.2 e.1 hmem e.1 List.mem_cons_self rfl
    rw [List.foldl_cons, set_of_notMem e.2 hnew, ih]
    · rw [List.append_assoc, List.singleton_append]
    · rwa [List.append_assoc, List.singleton_append]

theorem eq_or_mem_of_mem_set {entries : List (String × α)} {name : String} {value : α}
    {e : String × α} (h : e ∈ set entries name value) : e = (name, value) ∨ e ∈ entries := by
  induction entries with
  | nil => exact .inl (List.mem_singleton.mp h)
  | cons first entries ih =>
    unfold set at h
    split at h
    · rename_i hname
      rcases List.mem_cons.mp h with rfl | hmem
      · exact .inl (by rw [hname])
      · exact .inr (List.mem_cons_of_mem _ hmem)
    · rcases List.mem_cons.mp h with rfl | hmem
      · exact .inr List.mem_cons_self
      · exact (ih hmem).imp_right (List.mem_cons_of_mem _)

theorem lookup_set_self (entries : List (String × α)) (name : String) (value : α) :
    (set entries name value).lookup name = some value := by
  induction entries with
  | nil => simp [set]
  | cons e entries ih =>
    unfold set
    split
    · rename_i hname
      simp [hname]
    · rename_i hname
      rw [List.lookup_cons, beq_false_of_ne (Ne.symm hname)]
      exact ih

theorem lookup_set_of_ne {entries : List (String × α)} {name other : String} (value : α)
    (h : other ≠ name) : (set entries name value).lookup other = entries.lookup other := by
  induction entries with
  | nil => simp only [set, List.lookup_cons, beq_false_of_ne h, List.lookup_nil]
  | cons e entries ih =>
    obtain ⟨n, v⟩ := e
    unfold set
    split
    · rename_i hname
      simp only [List.lookup_cons, hname, beq_false_of_ne h]
    · simp only [List.lookup_cons, ih]

end Admission.Entries
