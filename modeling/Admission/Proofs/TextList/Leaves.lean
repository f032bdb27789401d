import Admission.Proofs.TextList
import Mathlib.Data.List.Induction

/-!
# Lists of texts and leaves of values

A value that is neither a list nor a map is a leaf, and `leaves` lists the leaves of a value in the
order in which they are written. The texts of a value are those of its leaves, trimmed, without the
blank ones, and each at its first place only (`ofNested_eq_collect`, `collect_nil_eq`). Repetitions
are dropped at every level of nesting, which comes to the same as dropping them once at the end
(`foldl_addNew_foldl`). `ofValue_leaves` adds that such a list is in normal form: it stands for
itself.
-/

set_option autoImplicit false
set_option relaxedAutoImplicit false

namespace Admission.TextList

/-! ### Adding what is new -/

theorem addNew_of_known {done : List String} {s : String} (h : s = "" ∨ s ∈ done) :
    addNew done s = done := by
  unfold addNew
  rw [if_pos (by simpa using h)]

theorem addNew_of_new {done : List String} {s : String} (hs : s ≠ "") (h : s ∉ done) :
    addNew done s = done ++ [s] := by
  unfold addNew
  rw [if_neg (by simp [hs, h])]

theorem mem_addNew_iff {done : List String} {s t : String} :
    t ∈ addNew done s ↔ t ∈ done ∨ t = s ∧ t ≠ "" := by
  by_cases hknown : s = "" ∨ s ∈ done
  · rw [addNew_of_known hknown]
    constructor
    · exact .inl
    · rintro (ht | ⟨rfl, hne⟩)
      · exact ht
      · exact hknown.resolve_left hne
  · obtain ⟨hne, hnew⟩ := not_or.mp hknown
    rw [addNew_of_new hne hnew, List.mem_append, List.mem_singleton]
    refine or_congr_right ⟨?_, And.left⟩
    rintro rfl
    exact ⟨rfl, hne⟩

theorem mem_foldl_addNew_iff {done texts : List String} {t : String} :
    t ∈ texts.foldl addNew done ↔ t ∈ done ∨ t ∈ texts ∧ t ≠ "" := by
  induction texts generalizing done with
  | nil => simp
  | cons s texts ih =>
    rw [List.foldl_cons, ih, mem_addNew_iff, List.mem_cons, or_assoc, or_and_right]

theorem nodup_foldl_addNew {done texts : List String} (h : done.Nodup) :
    (texts.foldl addNew done).Nodup := by
  induction texts generalizing done with
  | nil => exact h
  | cons s texts ih =>
    refine ih ?_
    by_cases hknown : s = "" ∨ s ∈ done
    · rwa [addNew_of_known hknown]
    · obtain ⟨hne, hnew⟩ := not_or.mp hknown
      rw [addNew_of_new hne hnew]
      rw [List.nodup_append]
      refine ⟨h, by simp, ?_⟩
      intro t ht u hu
      rw [List.mem_singleton.mp hu]
      rintro rfl
      exact hnew ht

/-- Texts from which repetitions were dropped add the same as these texts do one by one. -/
theorem foldl_addNew_foldl (done known texts : List String) :
    (texts.foldl addNew known).foldl addNew done =
      texts.foldl addNew (known.foldl addNew done) := by
  induction texts using List.reverseRecOn with
  | nil => rfl
  | append_singleton texts s ih =>
    rw [List.foldl_append, List.foldl_append, List.foldl_cons, List.foldl_nil, List.foldl_cons,
      List.foldl_nil, ← ih]
    by_cases hknown : s = "" ∨ s ∈ texts.foldl addNew known
    · have hthere : s = "" ∨ s ∈ (texts.foldl addNew known).foldl addNew done := by
        by_cases hne : s = ""
        · exact .inl hne
        · exact .inr (mem_foldl_addNew_iff.mpr (.inr ⟨hknown.resolve_left hne, hne⟩))
      rw [addNew_of_known hknown, addNew_of_known hthere]
    · obtain ⟨hne, hnew⟩ := not_or.mp hknown
      rw [addNew_of_new hne hnew, List.foldl_append, List.foldl_cons, List.foldl_nil]

theorem foldl_addNew_nil (texts : List String) :
    texts.foldl addNew [] = (texts.filter fun s ↦ !s.isEmpty).eraseDups := by
  induction texts using List.reverseRecOn with
  | nil => rfl
  | append_singleton texts s ih =>
    rw [List.foldl_append, List.foldl_cons, List.foldl_nil, List.filter_append,
      List.eraseDups_append, ← ih]
    by_cases hempty : s = ""
    · rw [addNew_of_known (.inl hempty)]
      simp [hempty, List.removeAll]
    · have hmem : s ∈ texts.foldl addNew [] ↔ s ∈ texts := by
        simp [mem_foldl_addNew_iff, hempty]
      by_cases hknown : s ∈ texts
      · rw [addNew_of_known (.inr (hmem.mpr hknown))]
        simp [hempty, hknown, List.removeAll]
      · rw [addNew_of_new hempty (mt hmem.mp hknown)]
        simp [hempty, hknown, List.removeAll, List.eraseDups_cons]

/-! ### Leaves -/

mutual

/-- The leaves of a value, in the order in which they are written; null has none. -/
def leaves : Value → List Value
  | .null => []
  | .list items => itemLeaves items
  | .map entries => entryLeaves entries
  | v => [v]

def itemLeaves : List Value → List Value
  | [] => []
  | v :: rest => leaves v ++ itemLeaves rest

def entryLeaves : List (String × Value) → List Value
  | [] => []
  | (_, v) :: rest => leaves v ++ entryLeaves rest

end

/-- The texts, trimmed, without the blank ones, and each at its first place only. -/
def distinct (texts : List String) : List String :=
  ((texts.map Text.trim).filter fun s ↦ !s.isEmpty).eraseDups

/-- Adds the texts of leaves that are new, if all leaves have a text. -/
def collect (done : List String) (found : List Value) : Except Fault (List String) :=
  match found.mapM Value.text? with
  | some texts => .ok ((texts.map Text.trim).foldl addNew done)
  | none => .error .integerTooLong

theorem collect_nil_eq (found : List Value) :
    collect [] found =
      match found.mapM Value.text? with
      | some texts => .ok (distinct texts)
      | none => .error .integerTooLong := by
  unfold collect distinct
  simp only [foldl_addNew_nil]

theorem collect_append (done : List String) (found more : List Value) :
    collect done (found ++ more) =
      collect [] found >>= fun texts ↦ collect (texts.foldl addNew done) more := by
  unfold collect
  rw [List.mapM_append]
  rcases found.mapM Value.text? with _ | texts
  · rfl
  · rcases more.mapM Value.text? with _ | others
    · rfl
    · show Except.ok _ = Except.ok _
      rw [foldl_addNew_foldl, List.map_append, List.foldl_append, List.foldl_nil]

theorem single_eq_addNew (s : String) : single s = addNew [] (Text.trim s) := by
  simp [single, addNew]

theorem written_eq_collect (v : Value) : written v = collect [] [v] := by
  unfold written collect
  rcases htext : v.text? with _ | s
  · simp [htext]
  · simp [htext, single_eq_addNew]

mutual

/-- The texts of a value that is not read as a document are those of its leaves. -/
theorem ofNested_eq_collect (v : Value) : ofNested v = collect [] (leaves v) := by
  cases v with
  | null => rfl
  | bool b => exact written_eq_collect (.bool b)
  | int n => exact written_eq_collect (.int n)
  | float x => exact written_eq_collect (.float x)
  | moment m => exact written_eq_collect (.moment m)
  | str s => exact written_eq_collect (.str s)
  | list items => exact ofItems_eq_collect [] items
  | map entries => exact ofEntries_eq_collect [] entries

theorem ofItems_eq_collect (done : List String) (items : List Value) :
    ofItems done items = collect done (itemLeaves items) := by
  cases items with
  | nil => rfl
  | cons v rest =>
    unfold ofItems itemLeaves
    rw [collect_append, ofNested_eq_collect v]
    exact bind_congr fun texts ↦ ofItems_eq_collect (texts.foldl addNew done) rest

theorem ofEntries_eq_collect (done : List String) (entries : List (String × Value)) :
    ofEntries done entries = collect done (entryLeaves entries) := by
  cases entries with
  | nil => rfl
  | cons e rest =>
    obtain ⟨key, v⟩ := e
    unfold ofEntries entryLeaves
    rw [collect_append, ofNested_eq_collect v]
    exact bind_congr fun texts ↦ ofEntries_eq_collect (texts.foldl addNew done) rest

end

/-! ### The normal form -/

/-- What is listed for a value: a text on its own stands for what it is read as, and any other value
for itself. -/
def meaning : Value → Except Fault Value
  | .str s => parse s
  | v => .ok v

theorem ofValue_eq_meaning (v : Value) : ofValue v = meaning v >>= ofNested := by
  cases v <;> rfl

theorem nodup_ofNested {v : Value} {texts : List String} (h : ofNested v = .ok texts) :
    texts.Nodup := by
  rw [ofNested_eq_collect] at h
  unfold collect at h
  split at h
  · rw [← Except.ok.inj h]
    exact nodup_foldl_addNew List.nodup_nil
  · cases h

theorem itemLeaves_texts (texts : List String) :
    itemLeaves (texts.map .str) = texts.map .str := by
  induction texts with
  | nil => rfl
  | cons s texts ih =>
    rw [List.map_cons, itemLeaves, ih]
    rfl

theorem mapM_text?_texts (texts : List String) :
    (texts.map Value.str).mapM Value.text? = some texts := by
  induction texts with
  | nil => rfl
  | cons s texts ih =>
    rw [List.map_cons, List.mapM_cons, ih]
    rfl

/-- The texts of a list of texts. -/
theorem ofValue_texts (texts : List String) :
    ofValue (.list (texts.map .str)) = .ok (distinct texts) := by
  show ofNested (.list (texts.map .str)) = _
  rw [ofNested_eq_collect, leaves, itemLeaves_texts, collect_nil_eq, mapM_text?_texts]

/-- Of tidy texts only repetitions are dropped. -/
theorem distinct_of_tidy {texts : List String} (h : ∀ t ∈ texts, IsTidy t) :
    distinct texts = texts.eraseDups := by
  have htrim : texts.map Text.trim = texts := by
    conv_rhs => rw [← List.map_id texts]
    exact List.map_congr_left fun t ht ↦ (h t ht).trim_eq
  unfold distinct
  rw [htrim, List.filter_eq_self.mpr]
  intro t ht
  simpa using (h t ht).ne_empty

theorem eraseDups_eq_self {texts : List String} (h : texts.Nodup) : texts.eraseDups = texts := by
  induction texts with
  | nil => rfl
  | cons s texts ih =>
    obtain ⟨hnew, hrest⟩ := List.nodup_cons.mp h
    rw [List.eraseDups_cons, List.filter_eq_self.mpr, ih hrest]
    intro t ht
    simpa using ne_of_mem_of_not_mem ht hnew

/-- The texts of a value, if it has any, are those of its leaves in the order in which these are
written: trimmed, without the blank ones, and each at its first place only. A value that is a text
is read first; texts inside it are not. So no text of a value is empty or has a blank at an end,
none is repeated, and the texts of the list of these texts are the same again. -/
theorem ofValue_leaves (v : Value) :
    (∀ texts, ofValue v = .ok texts ↔
      ∃ w found, meaning v = .ok w ∧ (leaves w).mapM Value.text? = some found ∧
        texts = distinct found) ∧
    ∀ texts, ofValue v = .ok texts →
      (∀ t ∈ texts, IsTidy t) ∧ texts.Nodup ∧ ofValue (.list (texts.map .str)) = .ok texts := by
  constructor
  · intro texts
    rw [ofValue_eq_meaning]
    constructor
    · intro h
      obtain ⟨w, hw, hnested⟩ := bind_eq_ok h
      rw [ofNested_eq_collect, collect_nil_eq] at hnested
      rcases hfound : (leaves w).mapM Value.text? with _ | found
      · rw [hfound] at hnested
        cases hnested
      · rw [hfound] at hnested
        exact ⟨w, found, hw, hfound, (Except.ok.inj hnested).symm⟩
    · rintro ⟨w, found, hw, hfound, rfl⟩
      rw [hw]
      show ofNested w = _
      rw [ofNested_eq_collect, collect_nil_eq, hfound]
  · intro texts h
    have htidy := tidy_ofValue h
    have hnodup : texts.Nodup := by
      rw [ofValue_eq_meaning] at h
      obtain ⟨w, -, hnested⟩ := bind_eq_ok h
      exact nodup_ofNested hnested
    refine ⟨htidy, hnodup, ?_⟩
    rw [ofValue_texts, distinct_of_tidy htidy, eraseDups_eq_self hnodup]

example : ofValue (.list [.str " b", .map [("k", .list [.str "a", .str "b"])], .null, .int 42]) =
    .ok ["b", "a", "42"] := by
  decide

end Admission.TextList
