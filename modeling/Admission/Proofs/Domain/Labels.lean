import Admission.EmailDomain

/-!
# Labels of domains

The labels of a domain are what stands between its points, outermost last. Which domain lies within
which is decided on the characters; `isWithin_iff_labels` says that this is the order of suffixes on
rows of labels, for all texts, empty labels included. So it is transitive (`isWithin_trans`), and a
domain that only ends in the characters of a listed one is not within it
(`isWithin_eq_false_of_append`). `isCovered_labels` carries this over to coverage by a list.
-/

set_option autoImplicit false
set_option relaxedAutoImplicit false

namespace Admission.EmailDomain

/-- The labels of a domain, in the order in which they are written. -/
def labels (domain : String) : List (List Char) :=
  domain.toList.splitOn '.'

/-- A domain is known by its labels. -/
theorem labels_inj {domain other : String} : labels domain = labels other ↔ domain = other := by
  constructor
  · intro h
    have hjoined := congrArg ['.'].intercalate h
    unfold labels at hjoined
    rw [List.intercalate_splitOn, List.intercalate_splitOn] at hjoined
    exact String.toList_inj.mp hjoined
  · rintro rfl
    rfl

/-- Labels in front of a domain are joined to it with a point. -/
theorem intercalate_append_labels {front : List (List Char)} (hfront : front ≠ [])
    (domain : String) :
    ['.'].intercalate (front ++ labels domain) =
      ['.'].intercalate front ++ '.' :: domain.toList := by
  have hlabels : labels domain ≠ [] := List.splitOn_ne_nil '.' domain.toList
  have hdomain : ['.'].intercalate (labels domain) = domain.toList := List.intercalate_splitOn '.'
  induction front with
  | nil => exact absurd rfl hfront
  | cons label front ih =>
    rw [List.cons_append, List.intercalate_cons_of_ne_nil (by simp [hlabels])]
    by_cases hlast : front = []
    · simp [hlast, hdomain]
    · rw [ih hlast, List.intercalate_cons_of_ne_nil hlast]
      simp

/-- A domain lies within another one exactly if the labels of that one are its last labels. -/
theorem isWithin_iff_labels {domain listed : String} :
    isWithin domain listed = true ↔ labels listed <:+ labels domain := by
  unfold isWithin
  rw [Bool.or_eq_true, beq_iff_eq, List.isSuffixOf_iff_suffix]
  constructor
  · rintro (rfl | ⟨front, hfront⟩)
    · exact List.suffix_refl _
    · refine ⟨front.splitOn '.', ?_⟩
      unfold labels
      rw [← hfront, List.splitOn_append_cons_self]
  · rintro ⟨front, hfront⟩
    by_cases hnone : front = []
    · left
      rw [hnone, List.nil_append] at hfront
      exact (labels_inj.mp hfront).symm
    · right
      refine ⟨['.'].intercalate front, ?_⟩
      rw [← intercalate_append_labels hnone, hfront]
      exact List.intercalate_splitOn '.'

/-- A domain lies within another one if it is that one, or is it with something and a point in
front. -/
theorem isWithin_iff_append {domain listed : String} :
    isWithin domain listed = true ↔ domain = listed ∨ ∃ front, domain = front ++ "." ++ listed := by
  unfold isWithin
  rw [Bool.or_eq_true, beq_iff_eq, List.isSuffixOf_iff_suffix]
  refine or_congr_right ⟨?_, ?_⟩
  · rintro ⟨front, hfront⟩
    refine ⟨String.ofList front, String.toList_inj.mp ?_⟩
    simp [← hfront]
  · rintro ⟨front, rfl⟩
    exact ⟨front.toList, by simp⟩

@[simp] theorem isWithin_self (domain : String) : isWithin domain domain = true := by
  simp [isWithin_iff_labels]

theorem isWithin_trans {domain middle outer : String} (h : isWithin domain middle = true)
    (hmiddle : isWithin middle outer = true) : isWithin domain outer = true := by
  rw [isWithin_iff_labels] at *
  exact hmiddle.trans h

/-- A domain that ends in the characters of another one, but not behind a point, is not within
it. -/
theorem isWithin_eq_false_of_append {domain listed : String} {front : List Char} {c : Char}
    (h : domain.toList = front ++ c :: listed.toList) (hc : c ≠ '.') :
    isWithin domain listed = false := by
  rw [Bool.eq_false_iff]
  unfold isWithin
  rw [ne_eq, Bool.or_eq_true, beq_iff_eq, List.isSuffixOf_iff_suffix, not_or]
  constructor
  · rintro rfl
    have hlength := congrArg List.length h
    rw [List.length_append, List.length_cons] at hlength
    omega
  · intro hsuffix
    have hbehind : c :: listed.toList <:+ domain.toList := ⟨front, h.symm⟩
    have hsame := List.suffix_of_suffix_length_le hsuffix hbehind (Nat.le_refl _)
    have hpoint := hsame.eq_of_length rfl
    exact hc (List.cons.inj hpoint).1.symm

/-- Which listed domains cover a given one. -/
theorem isCovered_iff {domain : Option String} {listed : List String} :
    isCovered domain listed = true ↔
      ∃ d, domain = some d ∧ d ≠ "" ∧ ∃ l ∈ listed, isWithin d l = true := by
  rcases domain with _ | d
  · simp [isCovered]
  · simp [isCovered]

/-- A domain that is not empty is covered exactly if the labels of some listed domain are its last
labels. So the order and the number of the listed domains do not matter, a look-alike that ends in
the characters of a listed domain without a point before them is not covered by it, and what is
covered by a domain is covered by whatever covers that domain. -/
theorem isCovered_labels {domain : String} (hdomain : domain ≠ "") (listed : List String) :
    (isCovered (some domain) listed = true ↔ ∃ l ∈ listed, labels l <:+ labels domain) ∧
      (∀ others : List String, (∀ l, l ∈ others ↔ l ∈ listed) →
        isCovered (some domain) others = isCovered (some domain) listed) ∧
      (∀ front c l, domain.toList = front ++ c :: l.toList → c ≠ '.' →
        isCovered (some domain) [l] = false) ∧
      ∀ middle outer, isCovered (some domain) [middle] = true →
        isCovered (some middle) [outer] = true → isCovered (some domain) [outer] = true := by
  have hcovered (others : List String) :
      isCovered (some domain) others = true ↔ ∃ l ∈ others, isWithin domain l = true := by
    simp [isCovered_iff, hdomain]
  refine ⟨?_, ?_, ?_, ?_⟩
  · simp only [hcovered, isWithin_iff_labels]
  · intro others hsame
    rw [Bool.eq_iff_iff, hcovered, hcovered]
    simp only [hsame]
  · intro front c l happend hc
    rw [Bool.eq_false_iff, ne_eq, hcovered]
    simp [isWithin_eq_false_of_append happend hc]
  · intro middle outer hinner houter
    rw [hcovered] at hinner ⊢
    rw [isCovered_iff] at houter
    obtain ⟨d, hd, -, hmiddle⟩ := houter
    obtain rfl := Option.some.inj hd
    simp only [List.mem_singleton, exists_eq_left] at hinner hmiddle ⊢
    exact isWithin_trans hinner hmiddle

/-- A subdomain is covered, and a look-alike is not. -/
theorem isCovered_labels_lookalike :
    "eu.corp.example" ≠ "" ∧ "evilcorp.example" ≠ "" ∧
      isCovered (some "eu.corp.example") ["other.example", "corp.example"] = true ∧
      isCovered (some "evilcorp.example") ["corp.example"] = false := by
  have hsubdomain : "eu.corp.example" ≠ "" := by decide
  have hlookalike : "evilcorp.example" ≠ "" := by decide
  refine ⟨hsubdomain, hlookalike, ?_, ?_⟩
  · refine (isCovered_labels hsubdomain _).1.mpr ⟨"corp.example", by simp, ["eu".toList], ?_⟩
    decide
  · exact (isCovered_labels hlookalike []).2.2.1 "evi".toList 'l' "corp.example" (by decide)
      (by decide)

end Admission.EmailDomain
