import Admission.Text.Blank
import Mathlib.Data.List.DropRight

/-!
# Trimmed texts

A text is trimmed if it neither begins nor ends with a blank (`trimChars_eq_self_iff`), and trimming
makes it so (`trim_trim`). More blanks around a text make no difference (`trimChars_append_append`).
-/

set_option autoImplicit false
set_option relaxedAutoImplicit false

namespace Admission.Text

theorem dropWhileEnd_eq_rdropWhile (p : Char → Bool) (cs : List Char) :
    dropWhileEnd p cs = cs.rdropWhile p :=
  rfl

/-- Nothing is dropped in front of a text that does not begin with a character of the class. -/
theorem dropWhile_eq_self_iff_head? {p : Char → Bool} {cs : List Char} :
    cs.dropWhile p = cs ↔ cs.head?.map p ≠ some true := by
  cases cs with
  | nil => simp
  | cons c cs => simp [List.dropWhile_eq_self_iff]

/-- Nothing is dropped behind a text that does not end with a character of the class. -/
theorem rdropWhile_eq_self_iff_getLast? {p : Char → Bool} {cs : List Char} :
    cs.rdropWhile p = cs ↔ cs.getLast?.map p ≠ some true := by
  rw [List.rdropWhile_eq_self_iff]
  by_cases hnone : cs = []
  · simp [hnone]
  · simp [hnone, List.getLast?_eq_some_getLast hnone]

/-- Trimming changes nothing exactly if there is no blank at either end. -/
theorem trimChars_eq_self_iff {cs : List Char} :
    trimChars cs = cs ↔
      cs.head?.map isBlank ≠ some true ∧ cs.getLast?.map isBlank ≠ some true := by
  rw [← dropWhile_eq_self_iff_head?, ← rdropWhile_eq_self_iff_getLast?]
  unfold trimChars
  rw [dropWhileEnd_eq_rdropWhile]
  constructor
  · intro h
    have hsuffix : cs.dropWhile isBlank <:+ cs := List.dropWhile_suffix isBlank
    have hpart : (cs.dropWhile isBlank).rdropWhile isBlank <+: cs.dropWhile isBlank :=
      List.rdropWhile_prefix ..
    have hwhole : cs.dropWhile isBlank = cs := by
      refine hsuffix.eq_of_length (Nat.le_antisymm hsuffix.length_le ?_)
      have hlength := hpart.length_le
      rwa [h] at hlength
    exact ⟨hwhole, by rwa [hwhole] at h⟩
  · rintro ⟨hfront, hend⟩
    rw [hfront, hend]

/-- There is nothing to trim of a text without blanks. -/
theorem trimChars_eq_self_of_forall {cs : List Char} (h : ∀ c ∈ cs, isBlank c = false) :
    trimChars cs = cs := by
  rw [trimChars_eq_self_iff]
  constructor
  · intro hfirst
    obtain ⟨c, hc, hblank⟩ := Option.map_eq_some_iff.mp hfirst
    rw [h c (List.mem_of_head? hc)] at hblank
    cases hblank
  · intro hlast
    obtain ⟨c, hc, hblank⟩ := Option.map_eq_some_iff.mp hlast
    rw [h c (List.mem_of_getLast? hc)] at hblank
    cases hblank

theorem rdropWhile_append_of_forall {p : Char → Bool} (cs : List Char) {after : List Char}
    (h : ∀ c ∈ after, p c = true) : (cs ++ after).rdropWhile p = cs.rdropWhile p := by
  unfold List.rdropWhile
  rw [List.reverse_append, List.dropWhile_append_of_pos (by simpa using h)]

/-- Blanks around a text are dropped with its own. -/
theorem trimChars_append_append {before cs after : List Char}
    (hbefore : ∀ c ∈ before, isBlank c = true) (hafter : ∀ c ∈ after, isBlank c = true) :
    trimChars (before ++ cs ++ after) = trimChars cs := by
  unfold trimChars
  rw [dropWhileEnd_eq_rdropWhile, dropWhileEnd_eq_rdropWhile, List.append_assoc,
    List.dropWhile_append_of_pos hbefore, List.dropWhile_append]
  split
  · rename_i hempty
    rw [List.isEmpty_iff.mp hempty, List.dropWhile_eq_nil_iff.mpr hafter]
  · exact rdropWhile_append_of_forall _ hafter

/-- Trimming a trimmed text changes nothing. -/
theorem trimChars_trimChars (cs : List Char) : trimChars (trimChars cs) = trimChars cs := by
  have hfront : ((cs.dropWhile isBlank).rdropWhile isBlank).dropWhile isBlank =
      (cs.dropWhile isBlank).rdropWhile isBlank := by
    obtain ⟨rest, hrest⟩ := List.rdropWhile_prefix isBlank (cs.dropWhile isBlank)
    rw [dropWhile_eq_self_iff_head?]
    rcases hkept : (cs.dropWhile isBlank).rdropWhile isBlank with _ | ⟨c, kept⟩
    · simp
    · have hfirst := List.head?_dropWhile_not isBlank cs
      rw [← hrest, hkept] at hfirst
      simpa using hfirst
  unfold trimChars
  rw [dropWhileEnd_eq_rdropWhile, dropWhileEnd_eq_rdropWhile, hfront, List.rdropWhile_idempotent]

@[simp] theorem trim_trim (s : String) : trim (trim s) = trim s := by
  unfold trim
  rw [String.toList_ofList, trimChars_trimChars]

/-- Trimming leaves nothing of a text of blanks only. -/
theorem trim_eq_empty_iff {s : String} : trim s = "" ↔ ∀ c ∈ s.toList, isBlank c = true := by
  unfold trim trimChars
  rw [dropWhileEnd_eq_rdropWhile, String.ofList_eq_empty_iff, List.rdropWhile_eq_nil_iff]
  constructor
  · intro h c hc
    rw [← List.takeWhile_append_dropWhile (p := isBlank) (l := s.toList)] at hc
    rcases List.mem_append.mp hc with hc | hc
    · exact List.mem_takeWhile_imp hc
    · exact h c hc
  · exact fun h c hc ↦ h c ((List.dropWhile_sublist _).subset hc)

theorem trim_eq_self_iff {s : String} : trim s = s ↔ trimChars s.toList = s.toList := by
  unfold trim
  constructor
  · intro h
    rw [← String.toList_ofList (l := trimChars s.toList), h]
  · intro h
    rw [h, String.ofList_toList]

end Admission.Text
