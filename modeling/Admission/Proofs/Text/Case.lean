import Admission.Proofs.Text.Percent
import Admission.Proofs.Text.Trim
import Admission.Text.Blank
import Admission.Text.Case

/-!
# Lower case and characters without case

Blanks, points and at signs have no case, and no character has one of them as its lower-case form
(`isMark_lowerChar`); for the runs of the table this is checked on their ends. So a text and its
lower-case form agree on where such characters stand, though an image may be longer than its
character and may depend on what stands around it (`exists_image`): at the ends (`head?_lowerChars`,
`getLast?_lowerChars`) and anywhere (`any_lowerChars`). Points in front do not matter for what comes
behind them (`dropWhile_lowerChars`).
-/

set_option autoImplicit false
set_option relaxedAutoImplicit false

namespace Admission.Text

/-- Blanks, points and at signs. -/
def isMark (c : Char) : Bool :=
  isBlank c || c == '.' || c == '@'

/-! ### Single characters -/

/-- The code points of the marks, from the first to the last of each row. -/
def markRanges : List (Nat × Nat) := [
  (9, 13), (28, 32), (46, 46), (64, 64), (0x85, 0x85), (0xA0, 0xA0), (0x1680, 0x1680),
  (0x2000, 0x200A), (0x2028, 0x2029), (0x202F, 0x202F), (0x205F, 0x205F), (0x3000, 0x3000)]

theorem exists_markRange {c : Char} (h : isMark c = true) :
    ∃ r ∈ markRanges, r.1 ≤ c.toNat ∧ c.toNat ≤ r.2 := by
  simp only [isMark, isBlank, Bool.or_eq_true, Bool.and_eq_true, decide_eq_true_eq,
    beq_iff_eq] at h
  simp only [markRanges, List.mem_cons, List.not_mem_nil, or_false, exists_eq_or_imp,
    exists_eq_left]
  rcases h with (h | rfl) | rfl
  · omega
  · decide
  · decide

/-- No run of letters, and no run of their lower-case forms, meets a range of marks. -/
theorem lowerRuns_apart : ∀ r ∈ lowerRuns, ∀ s ∈ markRanges,
    (r.2.1 < s.1 ∨ s.2 < r.1) ∧
      ((r.2.1 : Int) + r.2.2.2 < s.1 ∨ (s.2 : Int) < r.1 + r.2.2.2) := by
  decide +kernel

/-- A code point is shifted by the run that holds it, or stays. -/
theorem lowerShift_cases (n : Nat) :
    lowerShift n = 0 ∨ ∃ r ∈ lowerRuns, r.1 ≤ n ∧ n ≤ r.2.1 ∧ lowerShift n = r.2.2.2 := by
  unfold lowerShift
  split
  · rename_i r hfind
    have hrun := List.find?_some hfind
    simp only [Bool.and_eq_true, decide_eq_true_eq] at hrun
    exact .inr ⟨r, List.mem_of_find?_eq_some hfind, hrun.1.1, hrun.1.2, rfl⟩
  · exact .inl rfl

/-- A number that is no code point stands for the first character. -/
theorem toNat_charOfNat (n : Nat) : (Char.ofNat n).toNat = n ∨ (Char.ofNat n).toNat = 0 := by
  by_cases hvalid : n.isValidChar
  · left
    rw [Char.ofNat, dif_pos hvalid]
    rfl
  · right
    rw [Char.ofNat, dif_neg hvalid]
    rfl

/-- A character that is not in ASCII is its own lower-case form, or neither it nor that form is a
mark. -/
theorem lowerChar_eq_or_not_isMark {c : Char} (hc : 128 ≤ c.toNat) :
    lowerChar c = c ∨ (isMark c = false ∧ isMark (lowerChar c) = false) := by
  have hpositive : ∀ s ∈ markRanges, 0 < s.1 := by decide
  unfold lowerChar
  rw [if_neg (Nat.not_lt.mpr hc)]
  rcases lowerShift_cases c.toNat with hshift | ⟨r, hr, hfirst, hlast, hshift⟩
  · left
    rw [hshift]
    simp
  · right
    rw [hshift, Bool.eq_false_iff, Bool.eq_false_iff]
    constructor
    · intro hmark
      obtain ⟨s, hs, hle, hge⟩ := exists_markRange hmark
      have hletters := (lowerRuns_apart r hr s hs).1
      omega
    · intro hmark
      obtain ⟨s, hs, hle, hge⟩ := exists_markRange hmark
      have himages := (lowerRuns_apart r hr s hs).2
      have hs0 := hpositive s hs
      rcases toNat_charOfNat (c.toNat + r.2.2.2).toNat with hcode | hcode
      · omega
      · omega

/-- Lower case neither makes marks nor changes them. -/
theorem isMark_lowerChar (c : Char) :
    isMark (lowerChar c) = isMark c ∧ (isMark c = true → lowerChar c = c) := by
  by_cases hc : c.toNat < 128
  · exact forall_ascii (P := fun c ↦
      isMark (lowerChar c) = isMark c ∧ (isMark c = true → lowerChar c = c)) (by decide +kernel) hc
  · rcases lowerChar_eq_or_not_isMark (Nat.not_lt.mp hc) with hsame | ⟨hmark, hlower⟩
    · rw [hsame]
      exact ⟨rfl, fun _ ↦ rfl⟩
    · rw [hmark, hlower]
      exact ⟨rfl, nofun⟩

/-! ### Texts -/

/-- A class of characters that holds marks only. -/
def OfMarks (p : Char → Bool) : Prop :=
  ∀ c, p c = true → isMark c = true

theorem ofMarks_isBlank : OfMarks isBlank := by
  intro c hc
  simp [isMark, hc]

theorem ofMarks_point : OfMarks (· == '.') := by
  intro c hc
  obtain rfl := beq_iff_eq.mp hc
  decide

theorem ofMarks_at : OfMarks (· == '@') := by
  intro c hc
  obtain rfl := beq_iff_eq.mp hc
  decide

section Marks

variable {p : Char → Bool} (hp : OfMarks p)
include hp

theorem OfMarks.lowerChar (c : Char) : p (lowerChar c) = p c := by
  obtain ⟨hmark, hsame⟩ := isMark_lowerChar c
  by_cases hc : isMark c = true
  · rw [hsame hc]
  · have hnot {d : Char} (hd : isMark d ≠ true) : p d = false :=
      Bool.eq_false_iff.mpr fun h ↦ hd (hp d h)
    rw [hnot hc, hnot (by rwa [hmark])]

/-- Lower case puts an image for each character, which is of a class of marks if the character
is. -/
theorem exists_image (before : List Char) (c : Char) (cs : List Char) :
    ∃ image, lowerFrom before (c :: cs) = image ++ lowerFrom (c :: before) cs ∧
      image ≠ [] ∧ ∀ x ∈ image, p x = p c := by
  have hnot {d : Char} (hd : isMark d = false) : p d = false :=
    Bool.eq_false_iff.mpr fun h ↦ Bool.eq_false_iff.mp hd (hp d h)
  refine ⟨_, rfl, ?_, ?_⟩
  · split
    · simp
    · split <;> simp
  · intro x hx
    split at hx
    · rename_i hsigma
      have hletter : p 'Σ' = false := hnot (by decide +kernel)
      have hfinal : p 'ς' = false := hnot (by decide +kernel)
      have hinner : p 'σ' = false := hnot (by decide +kernel)
      rw [hsigma, hletter]
      split at hx
      · rwa [List.mem_singleton.mp hx]
      · rwa [List.mem_singleton.mp hx]
    · split at hx
      · rename_i hdotted
        have hletter : p 'İ' = false := hnot (by decide +kernel)
        have hbase : p 'i' = false := hnot (by decide +kernel)
        have habove : p '\u0307' = false := hnot (by decide +kernel)
        rw [hdotted, hletter]
        rcases List.mem_pair.mp hx with hx | hx
        · rwa [hx]
        · rwa [hx]
      · rw [List.mem_singleton.mp hx, hp.lowerChar]

theorem head?_lowerFrom (before cs : List Char) :
    (lowerFrom before cs).head?.map p = cs.head?.map p := by
  cases cs with
  | nil => rfl
  | cons c cs =>
    obtain ⟨image, heq, hne, hclass⟩ := exists_image hp before c cs
    obtain ⟨x, image, rfl⟩ := List.exists_cons_of_ne_nil hne
    rw [heq, List.cons_append, List.head?_cons, List.head?_cons, Option.map_some, Option.map_some,
      hclass x List.mem_cons_self]

/-- The first character of a text is a mark exactly if that of its lower-case form is. -/
theorem head?_lowerChars (cs : List Char) : (lowerChars cs).head?.map p = cs.head?.map p :=
  head?_lowerFrom hp [] cs

theorem any_lowerFrom (before cs : List Char) : (lowerFrom before cs).any p = cs.any p := by
  induction cs generalizing before with
  | nil => rfl
  | cons c cs ih =>
    obtain ⟨image, heq, hne, hclass⟩ := exists_image hp before c cs
    have himage : image.any p = p c := by
      obtain ⟨x, image, rfl⟩ := List.exists_cons_of_ne_nil hne
      rw [Bool.eq_iff_iff, List.any_eq_true]
      constructor
      · rintro ⟨y, hy, hpy⟩
        rwa [← hclass y hy]
      · intro hpc
        exact ⟨x, List.mem_cons_self, by rwa [hclass x List.mem_cons_self]⟩
    rw [heq, List.any_append, himage, ih, List.any_cons]

/-- A text holds a mark exactly if its lower-case form does. -/
theorem any_lowerChars (cs : List Char) : (lowerChars cs).any p = cs.any p :=
  any_lowerFrom hp [] cs

theorem getLast?_lowerFrom (before cs : List Char) :
    (lowerFrom before cs).getLast?.map p = cs.getLast?.map p := by
  induction cs generalizing before with
  | nil => rfl
  | cons c cs ih =>
    obtain ⟨image, heq, hne, hclass⟩ := exists_image hp before c cs
    have hrest := ih (c :: before)
    rw [heq, List.getLast?_append, List.getLast?_cons]
    rcases hlast : cs.getLast? with _ | d
    · rw [hlast, Option.map_none, Option.map_eq_none_iff] at hrest
      rw [hrest, Option.none_or, List.getLast?_eq_some_getLast hne]
      exact congrArg some (hclass _ (List.getLast_mem hne))
    · rw [hlast, Option.map_some] at hrest
      obtain ⟨x, hx, hpx⟩ := Option.map_eq_some_iff.mp hrest
      rw [hx, Option.some_or, Option.map_some, hpx, Option.getD_some, Option.map_some]

/-- The last character of a text is a mark exactly if that of its lower-case form is. -/
theorem getLast?_lowerChars (cs : List Char) :
    (lowerChars cs).getLast?.map p = cs.getLast?.map p :=
  getLast?_lowerFrom hp [] cs

end Marks

/-- The lower-case form of a text has some characters if the text has. -/
@[simp] theorem lowerChars_eq_nil_iff {cs : List Char} : lowerChars cs = [] ↔ cs = [] := by
  have hfirst := head?_lowerChars ofMarks_isBlank cs
  constructor
  · intro h
    rw [h] at hfirst
    simpa using hfirst.symm
  · rintro rfl
    rfl

/-! ### Points in front -/

/-- Points in front of a text do not matter for its lower case. -/
theorem lowerFrom_points {points : List Char} (hpoints : ∀ c ∈ points, c = '.')
    (before cs : List Char) : lowerFrom (before ++ points) cs = lowerFrom before cs := by
  have hfaces (before : List Char) : facesCased (before ++ points) = facesCased before := by
    have hdropped : points.dropWhile isCaseIgnorable = [] := by
      rw [List.dropWhile_eq_nil_iff]
      intro c hc
      rw [hpoints c hc]
      decide
    unfold facesCased
    rw [List.dropWhile_append, hdropped]
    by_cases hnone : before.dropWhile isCaseIgnorable = []
    · simp [hnone]
    · obtain ⟨c, rest, hrest⟩ := List.exists_cons_of_ne_nil hnone
      simp [hrest]
  induction cs generalizing before with
  | nil => rfl
  | cons c cs ih =>
    unfold lowerFrom
    rw [hfaces, ← List.cons_append, ih]

/-- The points in front of a text may be dropped before or after it is put into lower case. -/
theorem dropWhile_lowerChars (cs : List Char) :
    (lowerChars cs).dropWhile (· == '.') = lowerChars (cs.dropWhile (· == '.')) := by
  have key (points cs : List Char) (hpoints : ∀ c ∈ points, c = '.') :
      (lowerFrom points cs).dropWhile (· == '.') = lowerChars (cs.dropWhile (· == '.')) := by
    induction cs generalizing points with
    | nil => rfl
    | cons c cs ih =>
      by_cases hc : c = '.'
      · subst hc
        have hdropped : (lowerFrom points ('.' :: cs)).dropWhile (· == '.') =
            (lowerFrom ('.' :: points) cs).dropWhile (· == '.') := by
          rfl
        rw [hdropped, ih _ (List.forall_mem_cons.mpr ⟨rfl, hpoints⟩)]
        rfl
      · have hkept := head?_lowerFrom ofMarks_point points (c :: cs)
        have hbefore := lowerFrom_points hpoints [] (c :: cs)
        rw [List.nil_append] at hbefore
        rw [List.dropWhile_cons_of_neg (by simpa using hc), dropWhile_eq_self_iff_head?.mpr,
          hbefore]
        · rfl
        · rw [hkept]
          simpa using hc
  exact key [] cs nofun

end Admission.Text
