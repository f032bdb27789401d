import Admission.Proofs.Outcome
import Admission.Proofs.Text.Trim
import Admission.TextList

/-!
# Lists of texts are tidy

Whatever value a list of texts is made of, and however deep it is nested, no text in it is blank,
and none has a blank at an end (`tidy_ofValue`). Each mutual step keeps this, since texts are
trimmed where they are found and only texts that are not empty are added.
-/

set_option autoImplicit false
set_option relaxedAutoImplicit false

namespace Admission.TextList

/-- The text is neither empty nor has a blank at an end. -/
structure IsTidy (s : String) : Prop where
  ne_empty : s ≠ ""
  trim_eq : Text.trim s = s

theorem tidy_single (s : String) : ∀ t ∈ single s, IsTidy t := by
  intro t ht
  unfold single at ht
  dsimp only at ht
  split at ht
  · cases ht
  · rename_i hempty
    rw [List.mem_singleton.mp ht]
    exact ⟨fun h ↦ hempty (String.isEmpty_iff.mpr h), Text.trim_trim s⟩

theorem tidy_written {v : Value} {texts : List String} (h : written v = .ok texts) :
    ∀ t ∈ texts, IsTidy t := by
  unfold written at h
  split at h
  · rw [← Except.ok.inj h]
    exact tidy_single _
  · cases h

/-- Adding tidy texts keeps a list tidy. -/
theorem tidy_foldl_addNew {done texts : List String} (hdone : ∀ t ∈ done, IsTidy t)
    (htexts : ∀ t ∈ texts, IsTidy t) : ∀ t ∈ texts.foldl addNew done, IsTidy t := by
  induction texts generalizing done with
  | nil => exact hdone
  | cons s texts ih =>
    obtain ⟨hs, htexts⟩ := List.forall_mem_cons.mp htexts
    refine ih ?_ htexts
    unfold addNew
    split
    · exact hdone
    · intro t ht
      rcases List.mem_append.mp ht with ht | ht
      · exact hdone t ht
      · rwa [List.mem_singleton.mp ht]

mutual

theorem tidy_ofNested {v : Value} {texts : List String} (h : ofNested v = .ok texts) :
    ∀ t ∈ texts, IsTidy t := by
  cases v with
  | null =>
    cases h
    exact nofun
  | bool b => exact tidy_written (v := .bool b) h
  | int n => exact tidy_written (v := .int n) h
  | float x => exact tidy_written (v := .float x) h
  | moment m => exact tidy_written (v := .moment m) h
  | str s =>
    rw [ofNested] at h
    rw [← Except.ok.inj h]
    exact tidy_single s
  | list items =>
    have hitems : ofItems [] items = .ok texts := h
    exact tidy_ofItems (by simp) hitems
  | map entries =>
    have hentries : ofEntries [] entries = .ok texts := h
    exact tidy_ofEntries (by simp) hentries

theorem tidy_ofItems {done : List String} {items : List Value} {texts : List String}
    (hdone : ∀ t ∈ done, IsTidy t) (h : ofItems done items = .ok texts) :
    ∀ t ∈ texts, IsTidy t := by
  cases items with
  | nil =>
    cases h
    exact hdone
  | cons v rest =>
    unfold ofItems at h
    obtain ⟨found, hv, hrest⟩ := bind_eq_ok h
    exact tidy_ofItems (tidy_foldl_addNew hdone (tidy_ofNested hv)) hrest

theorem tidy_ofEntries {done : List String} {entries : List (String × Value)}
    {texts : List String} (hdone : ∀ t ∈ done, IsTidy t)
    (h : ofEntries done entries = .ok texts) : ∀ t ∈ texts, IsTidy t := by
  cases entries with
  | nil =>
    cases h
    exact hdone
  | cons e rest =>
    obtain ⟨key, v⟩ := e
    unfold ofEntries at h
    obtain ⟨found, hv, hrest⟩ := bind_eq_ok h
    exact tidy_ofEntries (tidy_foldl_addNew hdone (tidy_ofNested hv)) hrest

end

/-- The texts of a value are tidy. -/
theorem tidy_ofValue {v : Value} {texts : List String} (h : ofValue v = .ok texts) :
    ∀ t ∈ texts, IsTidy t := by
  cases v
  case str s =>
    obtain ⟨parsed, -, hnested⟩ := bind_eq_ok h
    exact tidy_ofNested hnested
  all_goals exact tidy_ofNested h

end Admission.TextList
