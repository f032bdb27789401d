import Admission.Proofs.Text.Percent
import Admission.Url.Reader

/-!
# Segments of dots

A path loses its segments of one or two dots, and with each pair of dots the segment before it:
`withoutDots_eq_self_iff` says that a path without such segments is the only kind that stays as it
is. What is left is a part of the path, in its order, and has no such segments any more.
-/

set_option autoImplicit false
set_option relaxedAutoImplicit false

namespace Admission.Url

/-- A segment that stands for a step and not for a name. -/
def IsDots (segment : List Char) : Prop :=
  segment = dot ∨ segment = dotDot

instance (segment : List Char) : Decidable (IsDots segment) :=
  inferInstanceAs (Decidable (segment = dot ∨ segment = dotDot))

/-! ### Going through the segments -/

/-- What is left of some segments comes after what was there, in the order of the segments. -/
theorem sublist_foldl_addSegment (done segments : List (List Char)) :
    (segments.foldl addSegment done).reverse.Sublist (done.reverse ++ segments) := by
  induction segments generalizing done with
  | nil => simp
  | cons segment segments ih =>
    have hstep : (addSegment done segment).reverse.Sublist (done.reverse ++ [segment]) := by
      unfold addSegment
      split
      · exact List.sublist_append_left _ _
      · split
        · split
          · exact List.sublist_append_left _ _
          · exact (List.tail_sublist done).reverse.trans (List.sublist_append_left _ _)
        · simp
    have hrest := (ih (addSegment done segment)).trans (hstep.append_right segments)
    rwa [List.append_assoc, List.singleton_append] at hrest

/-- No segment of dots is left. -/
theorem not_isDots_of_mem_foldl {done segments : List (List Char)}
    (hdone : ∀ s ∈ done, ¬IsDots s) : ∀ s ∈ segments.foldl addSegment done, ¬IsDots s := by
  induction segments generalizing done with
  | nil => exact hdone
  | cons segment segments ih =>
    refine ih fun s hs ↦ ?_
    unfold addSegment at hs
    split at hs
    · exact hdone s hs
    · rename_i hdot
      split at hs
      · split at hs
        · exact hdone s hs
        · exact hdone s (List.mem_of_mem_tail hs)
      · rename_i hdotDot
        rcases List.mem_cons.mp hs with rfl | hs
        · rintro (hs | hs)
          · exact hdot hs
          · exact hdotDot hs
        · exact hdone s hs

/-! ### Paths and their segments -/

/-- A path with a slash in front is its segments with a slash in front of each. -/
theorem cons_intercalate {segments : List (List Char)} (h : segments ≠ []) :
    '/' :: ['/'].intercalate segments = (segments.map ('/' :: ·)).flatten := by
  induction segments with
  | nil => exact absurd rfl h
  | cons segment segments ih =>
    rcases segments with _ | ⟨next, segments⟩
    · simp
    · rw [List.intercalate_cons_cons, List.map_cons, List.flatten_cons, ← ih (List.cons_ne_nil _ _)]
      simp

theorem sublist_flatten_map (f : List Char → List Char) {segments more : List (List Char)}
    (h : segments.Sublist more) : (segments.map f).flatten.Sublist (more.map f).flatten := by
  induction h with
  | slnil => exact List.Sublist.refl _
  | cons segment _ ih => exact ih.trans (List.sublist_append_right _ _)
  | cons_cons segment _ ih => exact ih.append_left (f segment)

/-- Leaving segments out leaves characters out. -/
theorem sublist_intercalate {segments more : List (List Char)} (h : segments.Sublist more) :
    (['/'].intercalate segments).Sublist (['/'].intercalate more) := by
  by_cases hnone : segments = []
  · rw [hnone]
    exact List.nil_sublist _
  · have hmore : more ≠ [] := by
      rintro rfl
      exact hnone (List.sublist_nil.mp h)
    rw [← List.cons_sublist_cons (a := '/'), cons_intercalate hnone, cons_intercalate hmore]
    exact sublist_flatten_map _ h

theorem not_mem_of_mem_splitOn {path segment : List Char} (h : segment ∈ path.splitOn '/') :
    '/' ∉ segment := by
  induction path generalizing segment with
  | nil =>
    rw [List.splitOn_nil, List.mem_singleton] at h
    rw [h]
    exact List.not_mem_nil
  | cons c path ih =>
    rw [List.splitOn_cons_eq_if_modifyHead] at h
    split at h
    · rcases List.mem_cons.mp h with rfl | h
      · exact List.not_mem_nil
      · exact ih h
    · rename_i hc
      obtain ⟨first, rest, hsplit⟩ := List.exists_cons_of_ne_nil (List.splitOn_ne_nil '/' path)
      rw [hsplit, List.modifyHead_cons] at h
      rcases List.mem_cons.mp h with rfl | h
      · rw [List.mem_cons, not_or]
        refine ⟨fun hslash ↦ hc (beq_iff_eq.mpr hslash.symm), ih ?_⟩
        rw [hsplit]
        exact List.mem_cons_self
      · refine ih ?_
        rw [hsplit]
        exact List.mem_cons_of_mem first h

/-- A path has one segment more than it has slashes. -/
theorem length_splitOn (path : List Char) :
    (path.splitOn '/').length = path.count '/' + 1 := by
  induction path with
  | nil => rfl
  | cons c path ih =>
    rw [List.splitOn_cons_eq_if_modifyHead, List.count_cons]
    split
    · rw [List.length_cons, ih]
    · rw [List.length_modifyHead, ih]

/-- A path without segments of dots stays as it is. -/
theorem withoutDots_eq_self {path : List Char} (h : ∀ s ∈ path.splitOn '/', ¬IsDots s) :
    withoutDots path = path := by
  unfold withoutDots
  refine if_neg ?_
  rw [Bool.or_eq_true, List.contains_iff_mem, List.contains_iff_mem]
  rintro (hmem | hmem)
  · exact h dot hmem (.inl rfl)
  · exact h dotDot hmem (.inr rfl)

/-- What is left of a path is a part of it. -/
theorem sublist_withoutDots (path : List Char) : (withoutDots path).Sublist path := by
  unfold withoutDots
  dsimp only
  split
  · have hsegments := sublist_intercalate (sublist_foldl_addSegment [] (path.splitOn '/'))
    rwa [List.reverse_nil, List.nil_append, List.intercalate_splitOn] at hsegments
  · exact List.Sublist.refl path

/-- No segment of dots is left of a path. -/
theorem not_isDots_of_mem_withoutDots {path : List Char} :
    ∀ s ∈ (withoutDots path).splitOn '/', ¬IsDots s := by
  unfold withoutDots
  dsimp only
  split
  · rename_i hdots
    have hleft := @not_isDots_of_mem_foldl [] (path.splitOn '/') nofun
    by_cases hnone : ((path.splitOn '/').foldl addSegment []).reverse = []
    · rw [hnone]
      intro s hs
      obtain rfl : s = [] := by simpa using hs
      rintro (h | h) <;> cases h
    · rw [List.splitOn_intercalate '/' _ hnone]
      · exact fun s hs ↦ hleft s (List.mem_reverse.mp hs)
      · intro s hs
        have hsub := sublist_foldl_addSegment [] (path.splitOn '/')
        exact not_mem_of_mem_splitOn (hsub.subset hs)
  · rename_i hnone
    intro s hs hdots
    refine hnone ?_
    rw [Bool.or_eq_true, List.contains_iff_mem, List.contains_iff_mem]
    rcases hdots with rfl | rfl
    · exact .inl hs
    · exact .inr hs

/-- Exactly the paths without segments of dots stay as they are. -/
theorem withoutDots_eq_self_iff {path : List Char} :
    withoutDots path = path ↔ ∀ s ∈ path.splitOn '/', ¬IsDots s := by
  constructor
  · intro h
    rw [← h]
    exact not_isDots_of_mem_withoutDots
  · exact withoutDots_eq_self

/-- What is left of a path stays as it is. -/
theorem withoutDots_withoutDots (path : List Char) :
    withoutDots (withoutDots path) = withoutDots path :=
  withoutDots_eq_self not_isDots_of_mem_withoutDots

/-! ### Paths that begin with a slash -/

/-- The empty segment in front of everything is never taken back. -/
theorem foldl_addSegment_rooted (before segments : List (List Char)) :
    ∃ after, segments.foldl addSegment (before ++ [[]]) = after ++ [[]] := by
  induction segments generalizing before with
  | nil => exact ⟨before, rfl⟩
  | cons segment segments ih =>
    have hstep : ∃ after, addSegment (before ++ [[]]) segment = after ++ [[]] := by
      unfold addSegment
      split
      · exact ⟨before, rfl⟩
      · split
        · split
          · exact ⟨before, rfl⟩
          · rename_i hroot
            rcases before with _ | ⟨first, before⟩
            · exact absurd rfl hroot
            · exact ⟨before, rfl⟩
        · exact ⟨segment :: before, rfl⟩
    obtain ⟨after, hafter⟩ := hstep
    rw [List.foldl_cons, hafter]
    exact ih after

/-- What is left of a path that begins with a slash does so too, unless nothing is left. -/
theorem withoutDots_rooted (path : List Char) :
    withoutDots ('/' :: path) = [] ∨ (withoutDots ('/' :: path)).head? = some '/' := by
  unfold withoutDots
  dsimp only
  split
  · have hsplit : ('/' :: path).splitOn '/' = [] :: path.splitOn '/' := by
      rw [List.splitOn_cons_eq_if_modifyHead]
      rfl
    obtain ⟨after, hafter⟩ := foldl_addSegment_rooted [] (path.splitOn '/')
    have hfold : (('/' :: path).splitOn '/').foldl addSegment [] = after ++ [[]] := by
      rw [hsplit]
      exact hafter
    rw [hfold, List.reverse_append, List.reverse_singleton, List.singleton_append]
    rcases after.reverse with _ | ⟨next, rest⟩
    · exact .inl rfl
    · rw [List.intercalate_cons_cons]
      exact .inr rfl
  · exact .inr rfl

end Admission.Url
