import Admission.Number.Numeral
import Admission.Number.Shortest
import Admission.Proofs.Text.Case
import Mathlib.Algebra.Group.Nat.Defs

/-!
# Numbers and their texts

Digits that do not begin with a zero are the digits of the number that they denote
(`toDigits_ofDigits`), so an integer that was read is written as it was read (`intText?_applySign`);
only a zero loses its sign. An integer has no text exactly if it has too many digits
(`intText?_eq_none_iff`). The text of a floating point number holds no blanks
(`not_isBlank_of_mem_textChars`).
-/

set_option autoImplicit false
set_option relaxedAutoImplicit false

namespace Admission

namespace Numeral

/-- Digits that stand for a number as it is written: a zero alone, or no zero in front. -/
structure IsWritten (digits : List Char) : Prop where
  ne_nil : digits ≠ []
  isDigit : ∀ c ∈ digits, isDigit c = true
  zero : digits.head? = some '0' → digits = ['0']

theorem lt_of_isDigit {c : Char} (hc : isDigit c = true) : c.toNat < 128 := by
  simp only [isDigit, Bool.and_eq_true, decide_eq_true_eq] at hc
  have hle : c.toNat ≤ 57 := UInt32.le_iff_toNat_le.mp hc.2
  omega

theorem not_isBlank_of_isDigit {c : Char} (hc : isDigit c = true) : Text.isBlank c = false :=
  Text.forall_ascii (P := fun c ↦ isDigit c = true → Text.isBlank c = false) (by decide +kernel)
    (lt_of_isDigit hc) hc

theorem digitChar_digitValue {c : Char} (hc : isDigit c = true) :
    digitValue c < 10 ∧ Nat.digitChar (digitValue c) = c :=
  Text.forall_ascii (P := fun c ↦ isDigit c = true →
    digitValue c < 10 ∧ Nat.digitChar (digitValue c) = c) (by decide +kernel) (lt_of_isDigit hc) hc

/-- More digits behind those of a number that is not zero. -/
theorem toDigits_append {n : Nat} (hn : 0 < n) {digits : List Char}
    (hdigits : ∀ c ∈ digits, isDigit c = true) :
    Nat.toDigits 10 n ++ digits =
      Nat.toDigits 10 (digits.foldl (fun n c ↦ n * 10 + digitValue c) n) := by
  induction digits generalizing n with
  | nil => simp
  | cons c digits ih =>
    obtain ⟨hc, hdigits⟩ := List.forall_mem_cons.mp hdigits
    obtain ⟨hsmall, hchar⟩ := digitChar_digitValue hc
    have hfirst : Nat.toDigits 10 n ++ [c] = Nat.toDigits 10 (n * 10 + digitValue c) := by
      rw [Nat.mul_comm, ← Nat.toDigits_append_toDigits (by decide) hn hsmall,
        Nat.toDigits_of_lt_base hsmall, hchar]
    rw [List.foldl_cons, ← ih (by omega) hdigits, ← hfirst, List.append_assoc,
      List.singleton_append]

theorem toDigits_ofDigits {digits : List Char} (h : IsWritten digits) :
    Nat.toDigits 10 (ofDigits digits) = digits := by
  obtain ⟨c, rest, rfl⟩ := List.exists_cons_of_ne_nil h.ne_nil
  obtain ⟨hc, hrest⟩ := List.forall_mem_cons.mp h.isDigit
  obtain ⟨hsmall, hchar⟩ := digitChar_digitValue hc
  by_cases hzero : c = '0'
  · rw [h.zero (by rw [hzero]; rfl)]
    decide
  · have hpositive : 0 < digitValue c := by
      rw [Nat.pos_iff_ne_zero]
      intro hvalue
      rw [hvalue] at hchar
      exact hzero hchar.symm
    have hfirst : ofDigits (c :: rest) =
        rest.foldl (fun n c ↦ n * 10 + digitValue c) (digitValue c) := by
      rw [ofDigits, List.foldl_cons, Nat.zero_mul, Nat.zero_add]
    rw [hfirst, ← toDigits_append hpositive hrest, Nat.toDigits_of_lt_base hsmall, hchar,
      List.singleton_append]

/-- An integer that was read is written as it was read. -/
theorem intText?_applySign {negative : Bool} {digits : List Char} (h : IsWritten digits)
    (hlength : digits.length ≤ digitLimit) (hzero : ¬(negative = true ∧ digits = ['0'])) :
    intText? (applySign negative (ofDigits digits)) =
      some (String.ofList ((if negative then ['-'] else []) ++ digits)) := by
  have habs : (applySign negative (ofDigits digits)).natAbs = ofDigits digits := by
    cases negative <;> simp [applySign]
  have hsign : applySign negative (ofDigits digits) < 0 ↔ negative = true := by
    cases negative with
    | false => simp [applySign]
    | true =>
      have hne : ofDigits digits ≠ 0 := by
        intro hvalue
        have hdigits := toDigits_ofDigits h
        rw [hvalue] at hdigits
        exact hzero ⟨rfl, hdigits.symm⟩
      simp [applySign, Nat.pos_of_ne_zero hne]
  unfold intText?
  rw [habs, Nat.toString_eq_ofList_toDigits, toDigits_ofDigits h]
  simp only [String.length_ofList, Nat.not_lt.mpr hlength, if_false, hsign]
  cases negative <;> simp

/-- An integer is too long to be written exactly if it has more digits than the limit allows. -/
theorem intText?_eq_none_iff {n : Int} : intText? n = none ↔ 10 ^ digitLimit ≤ n.natAbs := by
  have hlength : (toString n.natAbs).length ≤ digitLimit ↔ n.natAbs < 10 ^ digitLimit := by
    rw [Nat.toString_eq_ofList_toDigits, String.length_ofList,
      Nat.length_toDigits_le_iff (by decide) (by decide)]
  unfold intText?
  dsimp only
  rw [← Nat.not_lt, ← hlength]
  simp

end Numeral

namespace Binary64

theorem not_isBlank_of_mem_toDigits (n : Nat) :
    ∀ c ∈ Nat.toDigits 10 n, Text.isBlank c = false := by
  intro c hc
  have hdigit := Nat.isDigit_of_mem_toDigits (by decide) (by decide) hc
  have hascii : c.toNat < 128 := by
    simp only [Char.isDigit, Bool.and_eq_true, decide_eq_true_eq] at hdigit
    have hle : c.toNat ≤ 57 := UInt32.le_iff_toNat_le.mp hdigit.2
    omega
  exact Text.forall_ascii (P := fun c ↦ c.isDigit = true → Text.isBlank c = false)
    (by decide +kernel) hascii hdigit

theorem not_isBlank_of_mem_replicate (n : Nat) :
    ∀ c ∈ List.replicate n '0', Text.isBlank c = false := by
  intro c hc
  rw [List.eq_of_mem_replicate hc]
  decide

/-- Laying digits out adds zeros, a point and an exponent, and no blanks. -/
theorem not_isBlank_of_mem_layout {digits : List Char} {leading : Int}
    (hdigits : ∀ c ∈ digits, Text.isBlank c = false) :
    ∀ c ∈ layout digits leading, Text.isBlank c = false := by
  have hzero : Text.isBlank '0' = false := by decide
  have hpoint : Text.isBlank '.' = false := by decide
  unfold layout
  split
  · split
    · exact List.forall_mem_cons.mpr ⟨hzero, List.forall_mem_cons.mpr ⟨hpoint,
        List.forall_mem_append.mpr ⟨not_isBlank_of_mem_replicate _, hdigits⟩⟩⟩
    · have hpadded (zeros : Nat) :
          ∀ c ∈ digits ++ List.replicate zeros '0', Text.isBlank c = false :=
        List.forall_mem_append.mpr ⟨hdigits, not_isBlank_of_mem_replicate zeros⟩
      refine List.forall_mem_append.mpr ⟨fun c hc ↦ hpadded _ c (List.mem_of_mem_take hc),
        List.forall_mem_cons.mpr ⟨hpoint, ?_⟩⟩
      split
      · simpa using hzero
      · exact fun c hc ↦ hpadded _ c (List.mem_of_mem_drop hc)
  · refine List.forall_mem_append.mpr ⟨?_, List.forall_mem_cons.mpr ⟨by decide,
      List.forall_mem_cons.mpr ⟨?_, ?_⟩⟩⟩
    · split
      · obtain ⟨hd, he, hrest⟩ : Text.isBlank _ = false ∧ Text.isBlank _ = false ∧ _ := by
          simpa using hdigits
        exact List.forall_mem_cons.mpr ⟨hd, List.forall_mem_cons.mpr ⟨hpoint,
          List.forall_mem_cons.mpr ⟨he, hrest⟩⟩⟩
      · exact hdigits
    · split <;> decide
    · split
      · exact List.forall_mem_cons.mpr ⟨hzero, not_isBlank_of_mem_toDigits _⟩
      · exact not_isBlank_of_mem_toDigits _

/-- The text of a floating point number holds no blanks. -/
theorem not_isBlank_of_mem_textChars (x : Binary64) :
    ∀ c ∈ x.textChars, Text.isBlank c = false := by
  have hpositive (q : Rat) : ∀ c ∈ positiveText q, Text.isBlank c = false := by
    refine not_isBlank_of_mem_layout fun c hc ↦ ?_
    rw [List.mem_reverse] at hc
    have hdigit := (List.dropWhile_sublist _).subset hc
    exact not_isBlank_of_mem_toDigits _ c (List.mem_reverse.mp hdigit)
  have hfixed {cs : List Char} (h : cs.all (fun c ↦ !Text.isBlank c) = true) :
      ∀ c ∈ cs, Text.isBlank c = false := by
    simpa using h
  cases x with
  | nan => exact hfixed (by decide)
  | infinite negative => cases negative <;> exact hfixed (by decide)
  | negativeZero => exact hfixed (by decide)
  | finite q =>
    rw [textChars]
    split
    · exact hfixed (by decide)
    · split
      · exact List.forall_mem_cons.mpr ⟨by decide, hpositive _⟩
      · exact hpositive q

theorem textChars_ne_nil (x : Binary64) : x.textChars ≠ [] := by
  have hlayout (digits : List Char) (leading : Int) : layout digits leading ≠ [] := by
    unfold layout
    split
    · split <;> simp
    · simp
  have hpositive (q : Rat) : positiveText q ≠ [] := hlayout _ _
  unfold textChars
  split
  · simp
  · simp
  · simp
  · split
    · simp
    · split
      · simp
      · exact hpositive _

theorem trim_text (x : Binary64) : Text.trim x.text = x.text := by
  rw [Text.trim_eq_self_iff, text, String.toList_ofList]
  exact Text.trimChars_eq_self_of_forall (not_isBlank_of_mem_textChars x)

end Binary64

end Admission
