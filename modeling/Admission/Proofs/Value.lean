import Admission.Proofs.Number.Digits
import Admission.Proofs.TextList.Leaves

/-!
# Values and their texts

A value has no text exactly if an integer somewhere in it is too long to be written
(`text?_eq_none_iff`). The text of a value that is set shows something, unless the value is a text
itself (`exists_not_isBlank`).
-/

set_option autoImplicit false
set_option relaxedAutoImplicit false

namespace Admission.Value

open TextList (leaves itemLeaves entryLeaves)

/-- An integer in the value, however deep, has more digits than the limit allows. -/
def HoldsLongInteger (v : Value) : Prop :=
  ∃ n : Int, .int n ∈ leaves v ∧ 10 ^ Numeral.digitLimit ≤ n.natAbs

mutual

theorem code?_eq_none_iff (v : Value) : code? v = none ↔ HoldsLongInteger v := by
  cases v with
  | null | bool _ | float _ | str _ | moment _ => simp [code?, HoldsLongInteger, leaves]
  | int n => simp [code?, HoldsLongInteger, leaves, Numeral.intText?_eq_none_iff]
  | list items =>
    rw [code?, Option.map_eq_none_iff, codes?_eq_none_iff]
    rfl
  | map entries =>
    rw [code?, Option.map_eq_none_iff, entryCodes?_eq_none_iff]
    rfl

theorem codes?_eq_none_iff (items : List Value) :
    codes? items = none ↔
      ∃ n : Int, .int n ∈ itemLeaves items ∧ 10 ^ Numeral.digitLimit ≤ n.natAbs := by
  cases items with
  | nil => simp [codes?, itemLeaves]
  | cons v rest =>
    have hfirst := code?_eq_none_iff v
    unfold HoldsLongInteger at hfirst
    unfold codes? itemLeaves
    simp only [List.mem_append, or_and_right, exists_or]
    rw [← hfirst, ← codes?_eq_none_iff rest]
    rcases code? v with _ | part
    · simp
    · rcases codes? rest with _ | parts <;> simp

theorem entryCodes?_eq_none_iff (entries : List (String × Value)) :
    entryCodes? entries = none ↔
      ∃ n : Int, .int n ∈ entryLeaves entries ∧ 10 ^ Numeral.digitLimit ≤ n.natAbs := by
  cases entries with
  | nil => simp [entryCodes?, entryLeaves]
  | cons e rest =>
    obtain ⟨key, v⟩ := e
    have hfirst := code?_eq_none_iff v
    unfold HoldsLongInteger at hfirst
    unfold entryCodes? entryLeaves
    simp only [List.mem_append, or_and_right, exists_or]
    rw [← hfirst, ← entryCodes?_eq_none_iff rest]
    rcases code? v with _ | part
    · simp
    · rcases entryCodes? rest with _ | parts <;> simp

end

theorem text?_eq_none_iff (v : Value) : v.text? = none ↔ HoldsLongInteger v := by
  cases v with
  | str s => simp [text?, HoldsLongInteger, leaves]
  | moment m => simp [text?, HoldsLongInteger, leaves]
  | _ => exact code?_eq_none_iff _

/-- The text of a value that is set has a character that is no blank, unless the value is a text. -/
theorem exists_not_isBlank {v : Value} {s : String} (hset : v.isSet = true)
    (hstr : ∀ t, v ≠ .str t) (hs : v.text? = some s) :
    ∃ c ∈ s.toList, Text.isBlank c = false := by
  cases v with
  | null => cases hset
  | bool b =>
    obtain rfl : b = true := hset
    rw [← Option.some.inj hs]
    exact ⟨'T', by decide, by decide⟩
  | int n =>
    obtain ⟨c, rest, hdigits⟩ := List.exists_cons_of_ne_nil (@Nat.toDigits_ne_nil n.natAbs 10)
    have hc : c ∈ Nat.toDigits 10 n.natAbs := by
      rw [hdigits]
      exact List.mem_cons_self
    replace hs : Numeral.intText? n = some s := hs
    unfold Numeral.intText? at hs
    dsimp only at hs
    rw [Nat.toString_eq_ofList_toDigits] at hs
    split at hs
    · cases hs
    · have hmem : c ∈ (String.ofList (Nat.toDigits 10 n.natAbs)).toList := by
        rwa [String.toList_ofList]
      refine ⟨c, ?_, Binary64.not_isBlank_of_mem_toDigits _ c hc⟩
      rw [← Option.some.inj hs]
      split
      · rw [String.toList_append]
        exact List.mem_append_right _ hmem
      · exact hmem
  | float x =>
    obtain ⟨c, hc⟩ := List.exists_mem_of_ne_nil _ x.textChars_ne_nil
    refine ⟨c, ?_, x.not_isBlank_of_mem_textChars c hc⟩
    rwa [← Option.some.inj hs, Binary64.text, String.toList_ofList]
  | str t => exact absurd rfl (hstr t)
  | moment m =>
    have hdate (d : Date) : '-' ∈ (Moment.dateText d).toList := by
      simp [Moment.dateText]
    have hclock (t : ClockTime) : ':' ∈ (Moment.clockText t).toList := by
      simp [Moment.clockText]
    rw [← Option.some.inj hs]
    cases m with
    | date d => exact ⟨'-', hdate d, by decide⟩
    | time t => exact ⟨':', hclock t, by decide⟩
    | dateTime d t offset => exact ⟨'-', by simp [Moment.text, hdate], by decide⟩
  | list items =>
    obtain ⟨parts, -, hparts⟩ := Option.map_eq_some_iff.mp hs
    exact ⟨'[', by simp [← hparts], by decide⟩
  | map entries =>
    obtain ⟨parts, -, hparts⟩ := Option.map_eq_some_iff.mp hs
    exact ⟨'\x7b', by simp [← hparts], by decide⟩

end Admission.Value
