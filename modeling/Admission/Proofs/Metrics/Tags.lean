import Admission.Metrics
import Mathlib.Data.List.Nodup

/-!
# Texts of tags

Totals are told apart by the texts of their tags. Tags whose keys and values are free of the two
marks that the text puts between them have the same text exactly if they are the same set, whatever
the order in which they were given (`text_eq_iff`): sorting takes that order away (`sorted_eq_iff`),
and cutting the text at its marks gives the sorted tags back (`cut_text`).
-/

set_option autoImplicit false
set_option relaxedAutoImplicit false

namespace Admission.Tags

/-- Each key is given once, and neither keys nor values have a comma or an equals sign in them. -/
structure IsPlain (tags : Tags) : Prop where
  distinct : (tags.map Prod.fst).Nodup
  markless : ∀ tag ∈ tags,
    ',' ∉ tag.1.toList ++ tag.2.toList ∧ '=' ∉ tag.1.toList ++ tag.2.toList

instance : DecidablePred IsPlain := fun tags ↦
  decidable_of_iff ((tags.map Prod.fst).Nodup ∧
      ∀ tag ∈ tags, ',' ∉ tag.1.toList ++ tag.2.toList ∧ '=' ∉ tag.1.toList ++ tag.2.toList)
    ⟨fun h ↦ ⟨h.1, h.2⟩, fun h ↦ ⟨h.distinct, h.markless⟩⟩

/-! ### Order -/

/-- The tags in the order in which they are written. -/
def sorted (tags : Tags) : Tags :=
  tags.mergeSort fun a b ↦ !decide (b.1 < a.1)

theorem sorted_perm (tags : Tags) : tags.sorted.Perm tags :=
  List.mergeSort_perm ..

theorem pairwise_sorted (tags : Tags) : tags.sorted.Pairwise fun a b ↦ a.1 ≤ b.1 := by
  have hle (a b : String × String) : (!decide (b.1 < a.1)) = true ↔ a.1 ≤ b.1 := by
    rw [Bool.not_eq_true', decide_eq_false_iff_not, String.not_lt]
  refine (List.pairwise_mergeSort (fun a b c ↦ ?_) (fun a b ↦ ?_) tags).imp (hle _ _).mp
  · rw [hle, hle, hle]
    exact String.le_trans
  · rw [Bool.or_eq_true, hle, hle]
    exact String.le_total a.1 b.1

/-- Sorting leaves nothing of the order in which distinct keys were given. -/
theorem sorted_eq_iff {tags other : Tags} (h : (tags.map Prod.fst).Nodup) :
    tags.sorted = other.sorted ↔ tags.Perm other := by
  constructor
  · intro hsame
    exact (sorted_perm tags).symm.trans (hsame ▸ sorted_perm other)
  · intro hperm
    have hsorted : tags.sorted.Perm other.sorted :=
      (sorted_perm tags).trans (hperm.trans (sorted_perm other).symm)
    refine List.Perm.eq_of_pairwise (fun a b ha hb hab hba ↦ ?_) (pairwise_sorted tags)
      (pairwise_sorted other) hsorted
    have hb' : b ∈ tags := (sorted_perm tags).subset (hsorted.symm.subset hb)
    exact List.inj_on_of_nodup_map h ((sorted_perm tags).subset ha) hb' (String.le_antisymm hab hba)

/-! ### Marks -/

/-- The key and the value of a tag. -/
def parts (tag : String × String) : List (List Char) :=
  [tag.1.toList, tag.2.toList]

theorem parts_injective : Function.Injective parts := by
  intro a b h
  simp only [parts, List.cons.injEq, String.toList_inj, and_true] at h
  exact Prod.ext h.1 h.2

theorem toList_text (tags : Tags) :
    tags.text.toList =
      [','].intercalate (tags.sorted.map fun tag ↦ ['='].intercalate (parts tag)) := by
  have hpair (tag : String × String) :
      (tag.1 ++ "=" ++ tag.2).toList = ['='].intercalate (parts tag) := by
    simp [parts, List.intercalate_cons_cons]
  show (String.intercalate "," (tags.sorted.map fun tag ↦ tag.1 ++ "=" ++ tag.2)).toList = _
  rw [String.toList_intercalate, List.map_map]
  exact congrArg _ (List.map_congr_left fun tag _ ↦ hpair tag)

/-- What stands between the marks of a text: rows of parts between equals signs, between commas. -/
def cut (text : String) : List (List (List Char)) :=
  ((text.toList.splitOn ',').filter fun part ↦ !part.isEmpty).map (·.splitOn '=')

/-- The sorted tags are what stands between the marks of their text. -/
theorem cut_text {tags : Tags} (h : tags.IsPlain) : cut tags.text = tags.sorted.map parts := by
  have hmarkless {tag : String × String} (htag : tag ∈ tags.sorted) :
      ∀ part ∈ parts tag, ',' ∉ part ∧ '=' ∉ part := by
    intro part hpart
    have hmem : ∀ c ∈ part, c ∈ tag.1.toList ++ tag.2.toList := by
      intro c hc
      rcases List.mem_pair.mp hpart with rfl | rfl
      · exact List.mem_append_left _ hc
      · exact List.mem_append_right _ hc
    have hplain := h.markless tag ((sorted_perm tags).subset htag)
    exact ⟨fun hc ↦ hplain.1 (hmem _ hc), fun hc ↦ hplain.2 (hmem _ hc)⟩
  have hpair {tag : String × String} (htag : tag ∈ tags.sorted) :
      (['='].intercalate (parts tag)).splitOn '=' = parts tag :=
    List.splitOn_intercalate '=' (fun part hpart ↦ (hmarkless htag part hpart).2) (by simp [parts])
  unfold cut
  rw [toList_text]
  -- A text without tags is empty, and what is read from it is the empty part alone.
  rcases eq_or_ne tags.sorted [] with hnone | hsome
  · rw [hnone]
    rfl
  · rw [List.splitOn_intercalate ',' ?_ (by simpa using hsome), List.filter_eq_self.mpr ?_,
      List.map_map]
    · exact List.map_congr_left fun tag htag ↦ hpair htag
    · intro pair hmem
      obtain ⟨tag, -, rfl⟩ := List.mem_map.mp hmem
      simp [parts, List.intercalate_cons_cons]
    · intro pair hmem hcomma
      obtain ⟨tag, htag, rfl⟩ := List.mem_map.mp hmem
      have hparts := hmarkless htag
      simp only [parts, List.mem_cons, List.not_mem_nil, or_false, forall_eq_or_imp, forall_eq]
        at hparts
      simp [parts, List.intercalate_cons_cons, hparts.1.1, hparts.2.1] at hcomma

/-- Tags have the same text exactly if they are the same set. -/
theorem text_eq_iff {tags other : Tags} (h : tags.IsPlain) (h' : other.IsPlain) :
    tags.text = other.text ↔ tags.Perm other := by
  rw [← sorted_eq_iff h.distinct]
  constructor
  · intro htext
    have hparts : tags.sorted.map parts = other.sorted.map parts := by
      rw [← cut_text h, htext, cut_text h']
    exact List.map_injective_iff.mpr parts_injective hparts
  · intro hsorted
    rw [← String.toList_inj, toList_text, hsorted, toList_text]

end Admission.Tags
