import Admission.Number.Numeral
import Admission.Proofs.Text.Case

/-!
# Letters in either case

Two texts are of the same letters if they differ in the case of ASCII letters at most
(`SameLetters`). Such texts have the same lower-case form, whatever other characters they hold
(`SameLetters.lowerChars_eq`): the form of a capital sigma depends on the letters around it, but
only on whether they are letters with case. They also agree on where blanks and at signs stand, so
trimming keeps them the same (`SameLetters.trim`).
-/

set_option autoImplicit false
set_option relaxedAutoImplicit false

namespace Admission.Text

open Numeral (foldAscii)

/-- The texts differ in the case of ASCII letters at most. -/
def SameLetters (s t : String) : Prop :=
  s.toList.map foldAscii = t.toList.map foldAscii

/-! ### Single characters -/

/-- No character outside ASCII is an ASCII letter. -/
theorem foldAscii_of_not_ascii {c : Char} (hc : 128 ≤ c.toNat) : foldAscii c = c := by
  unfold foldAscii
  rw [if_neg]
  simp only [Bool.and_eq_true, decide_eq_true_eq, not_and]
  intro _ hle
  have hcode : c.toNat ≤ 90 := UInt32.le_iff_toNat_le.mp hle
  omega

/-- What does not tell capital from small ASCII letters needs to be checked on ASCII only. -/
theorem comp_foldAscii {α : Type} {f : Char → α}
    (h : ∀ n < 128, f (foldAscii (Char.ofNat n)) = f (Char.ofNat n)) : f ∘ foldAscii = f := by
  funext c
  by_cases hc : c.toNat < 128
  · exact forall_ascii (P := fun c ↦ f (foldAscii c) = f c) h hc
  · exact congrArg f (foldAscii_of_not_ascii (Nat.not_lt.mp hc))

theorem isBlank_comp_foldAscii : isBlank ∘ foldAscii = isBlank :=
  comp_foldAscii (by decide +kernel)

theorem isCaseIgnorable_comp_foldAscii : isCaseIgnorable ∘ foldAscii = isCaseIgnorable :=
  comp_foldAscii (by decide +kernel)

theorem isCased_comp_foldAscii : isCased ∘ foldAscii = isCased :=
  comp_foldAscii (by decide +kernel)

theorem lowerChar_comp_foldAscii : lowerChar ∘ foldAscii = lowerChar :=
  comp_foldAscii (by decide +kernel)

/-- A character that is no ASCII letter is the folded form of itself only. -/
theorem foldAscii_eq_iff {c d : Char}
    (hd : ∀ n < 128, (foldAscii (Char.ofNat n) = d ↔ Char.ofNat n = d)) :
    foldAscii c = d ↔ c = d := by
  have hfold := comp_foldAscii (f := fun c ↦ decide (c = d)) fun n hn ↦ by
    simpa using hd n hn
  simpa using congrFun hfold c

/-! ### Texts -/

theorem facesCased_map_foldAscii (cs : List Char) :
    facesCased (cs.map foldAscii) = facesCased cs := by
  unfold facesCased
  rw [List.dropWhile_map, isCaseIgnorable_comp_foldAscii]
  rcases cs.dropWhile isCaseIgnorable with _ | ⟨c, rest⟩
  · rfl
  · exact congrFun isCased_comp_foldAscii c

theorem lowerFrom_map_foldAscii (before cs : List Char) :
    lowerFrom (before.map foldAscii) (cs.map foldAscii) = lowerFrom before cs := by
  induction cs generalizing before with
  | nil => rfl
  | cons c cs ih =>
    have hsigma : foldAscii c = 'Σ' ↔ c = 'Σ' := foldAscii_eq_iff (by decide +kernel)
    have hdotted : foldAscii c = 'İ' ↔ c = 'İ' := foldAscii_eq_iff (by decide +kernel)
    have hlower : lowerChar (foldAscii c) = lowerChar c := congrFun lowerChar_comp_foldAscii c
    rw [List.map_cons, lowerFrom, lowerFrom, ← List.map_cons, ih]
    simp only [hsigma, hdotted, hlower, facesCased_map_foldAscii]

theorem lowerChars_map_foldAscii (cs : List Char) :
    lowerChars (cs.map foldAscii) = lowerChars cs :=
  lowerFrom_map_foldAscii [] cs

theorem dropWhileEnd_map_foldAscii (cs : List Char) :
    dropWhileEnd isBlank (cs.map foldAscii) = (dropWhileEnd isBlank cs).map foldAscii := by
  unfold dropWhileEnd
  rw [← List.map_reverse, List.dropWhile_map, isBlank_comp_foldAscii, List.map_reverse]

theorem trimChars_map_foldAscii (cs : List Char) :
    trimChars (cs.map foldAscii) = (trimChars cs).map foldAscii := by
  unfold trimChars
  rw [List.dropWhile_map, isBlank_comp_foldAscii, dropWhileEnd_map_foldAscii]

namespace SameLetters

variable {s t : String}

theorem lowerChars_eq (h : SameLetters s t) : lowerChars s.toList = lowerChars t.toList := by
  rw [← lowerChars_map_foldAscii, h, lowerChars_map_foldAscii]

theorem lowerChars_dropWhileEnd (h : SameLetters s t) :
    lowerChars (dropWhileEnd isBlank s.toList) = lowerChars (dropWhileEnd isBlank t.toList) := by
  rw [← lowerChars_map_foldAscii, ← dropWhileEnd_map_foldAscii, h, dropWhileEnd_map_foldAscii,
    lowerChars_map_foldAscii]

theorem trim (h : SameLetters s t) : SameLetters (Text.trim s) (Text.trim t) := by
  unfold SameLetters Text.trim
  rw [String.toList_ofList, String.toList_ofList, ← trimChars_map_foldAscii, h,
    trimChars_map_foldAscii]

theorem eq_empty_iff (h : SameLetters s t) : s = "" ↔ t = "" := by
  have hlength := congrArg List.length h
  rw [List.length_map, List.length_map] at hlength
  rw [← String.toList_eq_nil_iff, ← String.toList_eq_nil_iff, ← List.length_eq_zero_iff, hlength,
    List.length_eq_zero_iff]

theorem at_mem_iff (h : SameLetters s t) : '@' ∈ s.toList ↔ '@' ∈ t.toList := by
  have hfold (cs : List Char) : '@' ∈ cs.map foldAscii ↔ '@' ∈ cs := by
    have hat (c : Char) : foldAscii c = '@' ↔ c = '@' := foldAscii_eq_iff (by decide +kernel)
    simp only [List.mem_map, hat, exists_eq_right]
  rw [← hfold, h, hfold]

end SameLetters

end Admission.Text
