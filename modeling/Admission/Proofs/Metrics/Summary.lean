import Admission.Proofs.Entries
import Admission.Proofs.Metrics
import Admission.Proofs.Metrics.Tags
import Admission.Proofs.Number.Exact
import Mathlib.Data.List.DropRight

/-!
# Summaries

A recorder is incremented, cleared and summed up, in any order and any number of times. Its totals
are those of the increments since it was cleared last (`foldl_perform`), the summary lists what the
totals hold, each name and each text of tags once (`listed?_foldl_enter`), and adding one by one is
exact as long as the numbers are below `2 ^ 53` (`increments_eq`). With plain tags the text stands
for the set of tags. So a summary lists exactly the names and sets of tags that were incremented
since then, and under them how often they were (`summary_foldl_perform`).
-/

set_option autoImplicit false
set_option relaxedAutoImplicit false

namespace Admission.Metrics

/-! ### Totals -/

theorem mem_keys_addTo_iff {totals : List ((String × String) × Binary64)}
    {key other : String × String} (value : Binary64) :
    other ∈ (addTo totals key value).map Prod.fst ↔ other = key ∨ other ∈ totals.map Prod.fst := by
  induction totals with
  | nil => simp [addTo]
  | cons entry rest ih =>
    unfold addTo
    by_cases hkey : entry.1 = key
    · simp [hkey]
    · rw [if_neg hkey, List.map_cons, List.mem_cons, ih, List.map_cons, List.mem_cons]
      exact or_left_comm

theorem nodup_keys_addTo {totals : List ((String × String) × Binary64)} (key : String × String)
    (value : Binary64) (h : (totals.map Prod.fst).Nodup) :
    ((addTo totals key value).map Prod.fst).Nodup := by
  induction totals with
  | nil => exact List.nodup_singleton key
  | cons entry rest ih =>
    obtain ⟨hnew, hrest⟩ := List.nodup_cons.mp h
    unfold addTo
    by_cases hkey : entry.1 = key
    · rw [if_pos hkey]
      exact h
    · rw [if_neg hkey, List.map_cons, List.nodup_cons, mem_keys_addTo_iff]
      exact ⟨fun hmem ↦ hmem.elim hkey hnew, ih hrest⟩

/-- There is one total under each key. -/
theorem nodup_keys_foldl_raise (all : List Increment) :
    ((all.foldl raise {}).totals.map Prod.fst).Nodup := by
  induction all using List.reverseRecOn with
  | nil => exact List.nodup_nil
  | append_singleton all i ih =>
    rw [List.foldl_append]
    exact nodup_keys_addTo i.key _ ih

/-- There are totals under the keys that were incremented. -/
theorem mem_keys_foldl_raise_iff {all : List Increment} {key : String × String} :
    key ∈ (all.foldl raise {}).totals.map Prod.fst ↔ ∃ i ∈ all, i.key = key := by
  induction all using List.reverseRecOn with
  | nil => simp
  | append_singleton all i ih =>
    have hraised : key ∈ ((all ++ [i]).foldl raise {}).totals.map Prod.fst ↔
        key = i.key ∨ key ∈ (all.foldl raise {}).totals.map Prod.fst := by
      rw [List.foldl_append]
      exact mem_keys_addTo_iff _
    rw [hraised, ih]
    simp [or_comm, eq_comm]

/-- Adding one by one is exact below `2 ^ 53`. -/
theorem increments_eq {n : Nat} (hn : n < 2 ^ 53) : increments n = .finite n := by
  induction n with
  | zero => rfl
  | succ n ih =>
    have hone : Binary64.ofInt 1 = .finite 1 := by decide +kernel
    have hsum : (n : ℚ) + 1 = (n + 1 : Nat) := by push_cast; rfl
    have hdyadic : Binary64.IsDyadic ((n : ℚ) + 1) := hsum ▸ Binary64.isDyadic_natCast hn
    rw [increments_succ, ih (by omega), hone, Binary64.add_of_isDyadic (by positivity) hdyadic,
      hsum, Binary64.ofExact_natCast hn]

/-! ### What a summary lists -/

/-- Totals by the text of their tags, by name. -/
abbrev Summary := List (String × List (String × Binary64))

/-- A summary in which one more total is entered. -/
def enter (summary : Summary) (t : (String × String) × Binary64) : Summary :=
  Entries.set summary t.1.1 (Entries.set ((summary.lookup t.1.1).getD []) t.1.2 t.2)

theorem summary_eq (m : Metrics) : m.summary = m.totals.foldl enter [] :=
  rfl

/-- Each name is listed once, and so is each text under it. -/
structure IsTable (summary : Summary) : Prop where
  names : (summary.map Prod.fst).Nodup
  texts : ∀ group ∈ summary, (group.2.map Prod.fst).Nodup

theorem IsTable.enter {summary : Summary} (h : IsTable summary) (t : (String × String) × Binary64) :
    IsTable (enter summary t) := by
  refine ⟨Entries.nodup_set _ _ h.names, fun group hgroup ↦ ?_⟩
  rcases Entries.eq_or_mem_of_mem_set hgroup with rfl | hmem
  · refine Entries.nodup_set _ _ ?_
    rcases hfound : summary.lookup t.1.1 with _ | totals
    · exact List.nodup_nil
    · obtain ⟨front, rest, hsplit, -⟩ := List.lookup_eq_some_iff.mp hfound
      refine h.texts (t.1.1, totals) ?_
      rw [hsplit]
      exact List.mem_append_right _ List.mem_cons_self
  · exact h.texts group hmem

/-- The total that is listed under a name and a text, if there is one. -/
def listed? (summary : Summary) (name text : String) : Option Binary64 :=
  (summary.lookup name).bind fun totals ↦ totals.lookup text

theorem listed?_enter (summary : Summary) (t : (String × String) × Binary64) (name text : String) :
    listed? (enter summary t) name text =
      if (name, text) = t.1 then some t.2 else listed? summary name text := by
  obtain ⟨⟨n, k⟩, value⟩ := t
  unfold listed? enter
  by_cases hname : name = n
  · subst hname
    rw [Entries.lookup_set_self, Option.bind_some]
    by_cases htext : text = k
    · rw [htext, Entries.lookup_set_self, if_pos rfl]
    · rw [Entries.lookup_set_of_ne value htext, if_neg (by simpa using htext)]
      cases summary.lookup name <;> rfl
  · rw [Entries.lookup_set_of_ne _ hname, if_neg (by simp [hname])]

theorem isTable_foldl_enter (totals : List ((String × String) × Binary64)) :
    IsTable (totals.foldl enter []) := by
  induction totals using List.reverseRecOn with
  | nil => exact ⟨List.nodup_nil, nofun⟩
  | append_singleton totals t ih =>
    rw [List.foldl_append]
    exact ih.enter t

theorem mem_names_foldl_enter_iff {totals : List ((String × String) × Binary64)} {name : String} :
    name ∈ (totals.foldl enter []).map Prod.fst ↔ ∃ key ∈ totals.map Prod.fst, key.1 = name := by
  induction totals using List.reverseRecOn with
  | nil => simp
  | append_singleton totals t ih =>
    have hentered : name ∈ ((totals ++ [t]).foldl enter []).map Prod.fst ↔
        name ∈ (totals.foldl enter []).map Prod.fst ∨ name = t.1.1 := by
      rw [List.foldl_append, List.foldl_cons, List.foldl_nil, enter, Entries.map_fst_set]
      split
      · rename_i hmem
        exact ⟨.inl, fun h ↦ h.elim id fun hname ↦ hname ▸ hmem⟩
      · rw [List.mem_append, List.mem_singleton]
    rw [hentered, ih, List.map_append, List.map_singleton]
    simp only [List.mem_append, List.mem_singleton, or_and_right, exists_or, exists_eq_left]
    exact or_congr_right eq_comm

theorem listed?_foldl_enter {totals : List ((String × String) × Binary64)}
    (h : (totals.map Prod.fst).Nodup) (name text : String) :
    listed? (totals.foldl enter []) name text = totals.lookup (name, text) := by
  induction totals using List.reverseRecOn with
  | nil => rfl
  | append_singleton totals t ih =>
    rw [List.map_append, List.nodup_append] at h
    obtain ⟨hfront, -, hapart⟩ := h
    obtain ⟨key, value⟩ := t
    rw [List.foldl_append, List.foldl_cons, List.foldl_nil, listed?_enter, ih hfront,
      List.lookup_append]
    by_cases hkey : (name, text) = key
    · have hnone : totals.lookup (name, text) = none := by
        refine List.lookup_eq_none_iff.mpr fun entry hentry ↦ ?_
        rw [hkey, bne_iff_ne]
        exact (hapart entry.1 (List.mem_map_of_mem hentry) key (by simp)).symm
      rw [if_pos hkey, hnone, Option.none_or, hkey, List.lookup_cons, beq_self_eq_true]
    · rw [if_neg hkey, List.lookup_cons, beq_false_of_ne hkey, List.lookup_nil, Option.or_none]

/-! ### Operations -/

/-- What is done with a recorder. -/
inductive Operation
  | increment (i : Increment)
  | clear
  | summary
  deriving DecidableEq

/-- The recorder after an operation; summing up leaves it as it is. -/
def perform (m : Metrics) : Operation → Metrics
  | .increment i => m.raise i
  | .clear => m.clear
  | .summary => m

/-- The increment that an operation is. -/
def Operation.increment? : Operation → Option Increment
  | .increment i => some i
  | .clear => none
  | .summary => none

/-- The increments behind the last operation that clears the recorder. -/
def sinceClear (ops : List Operation) : List Increment :=
  (ops.rtakeWhile (· ≠ .clear)).filterMap Operation.increment?

theorem sinceClear_append (ops : List Operation) (op : Operation) :
    sinceClear (ops ++ [op]) =
      if op = .clear then [] else sinceClear ops ++ op.increment?.toList := by
  unfold sinceClear
  rw [List.rtakeWhile_concat]
  by_cases hclear : op = .clear
  · simp [hclear]
  · simp only [hclear, ne_eq, not_false_eq_true, decide_true, if_true, if_false,
      List.filterMap_append]
    cases op <;> rfl

/-- Nothing is left of what was before the recorder was cleared. -/
theorem foldl_perform (ops : List Operation) :
    ops.foldl perform {} = (sinceClear ops).foldl raise {} := by
  induction ops using List.reverseRecOn with
  | nil => rfl
  | append_singleton ops op ih =>
    rw [List.foldl_append, sinceClear_append, ih]
    cases op with
    | increment i =>
      rw [if_neg nofun, List.foldl_append]
      rfl
    | clear => rfl
    | summary =>
      rw [if_neg nofun, Operation.increment?, Option.toList_none, List.append_nil]
      rfl

/-! ### Counting -/

/-- How often a name was incremented with a set of tags, whatever their order. -/
def times (all : List Increment) (name : String) (tags : Tags) : Nat :=
  all.countP fun i ↦ i.name = name ∧ i.tags.Perm tags

theorem times_le_length (all : List Increment) (name : String) (tags : Tags) :
    times all name tags ≤ all.length :=
  List.countP_le_length

/-- The increments under one key are those of one name with one set of tags. -/
theorem countP_key_eq_times {all : List Increment} (hplain : ∀ i ∈ all, i.tags.IsPlain)
    {name : String} {tags : Tags} (htags : tags.IsPlain) :
    all.countP (·.key = (name, tags.text)) = times all name tags := by
  refine List.countP_congr fun i hi ↦ ?_
  simp only [decide_eq_true_eq, Increment.key, Prod.mk.injEq]
  exact and_congr_right fun _ ↦ Tags.text_eq_iff (hplain i hi) htags

/-- After any operations that leave fewer than `2 ^ 53` increments with plain tags since the
recorder was cleared, a summary is a table of the names and the sets of tags that were incremented
since then, and of nothing else. The total under a name and the text of a set of tags is the number
of times that it was incremented with this set, in whatever order the tags were given. Different
sets of tags are listed apart, and the tags of everything that is ever counted are plain. -/
theorem summary_foldl_perform {ops : List Operation}
    (hplain : ∀ i ∈ sinceClear ops, i.tags.IsPlain) (hfew : (sinceClear ops).length < 2 ^ 53) :
    let since := sinceClear ops
    let summary := (ops.foldl perform {}).summary
    IsTable summary ∧
      (∀ name, name ∈ summary.map Prod.fst ↔ ∃ i ∈ since, i.name = name) ∧
      (∀ name text total, listed? summary name text = some total ↔
        ∃ tags, ⟨name, tags⟩ ∈ since ∧ tags.text = text ∧ total = .finite (times since name tags)) ∧
      (∀ tags other : Tags, tags.IsPlain → other.IsPlain →
        (tags.text = other.text ↔ tags.Perm other)) ∧
      ∀ c ∈ Count.all, c.tags.IsPlain := by
  intro since summary
  have hsummary : summary = (since.foldl raise {}).totals.foldl enter [] := by
    rw [← summary_eq, ← foldl_perform]
  have hlisted (name text : String) : listed? summary name text =
      if since.countP (·.key = (name, text)) = 0 then none
      else some (increments (since.countP (·.key = (name, text)))) := by
    rw [hsummary, listed?_foldl_enter (nodup_keys_foldl_raise since), lookup_foldl_raise]
  refine ⟨hsummary ▸ isTable_foldl_enter _, fun name ↦ ?_, fun name text total ↦ ?_,
    fun tags other ↦ Tags.text_eq_iff, by decide⟩
  · rw [hsummary, mem_names_foldl_enter_iff]
    simp only [mem_keys_foldl_raise_iff]
    constructor
    · rintro ⟨key, ⟨i, hi, rfl⟩, hname⟩
      exact ⟨i, hi, hname⟩
    · rintro ⟨i, hi, hname⟩
      exact ⟨i.key, ⟨i, hi, rfl⟩, hname⟩
  · have htotal {tags : Tags} (htags : tags.IsPlain) : listed? summary name tags.text =
        if times since name tags = 0 then none else some (.finite (times since name tags)) := by
      rw [hlisted, countP_key_eq_times hplain htags,
        increments_eq ((times_le_length _ name tags).trans_lt hfew)]
    constructor
    · intro hsome
      have hpositive : since.countP (·.key = (name, text)) ≠ 0 := by
        intro hzero
        rw [hlisted, if_pos hzero] at hsome
        cases hsome
      obtain ⟨i, hi, hkey⟩ := List.countP_pos_iff.mp (Nat.pos_of_ne_zero hpositive)
      obtain ⟨rfl, rfl⟩ := Prod.mk.inj (of_decide_eq_true hkey)
      rw [htotal (hplain i hi)] at hsome
      split at hsome
      · cases hsome
      · exact ⟨i.tags, hi, rfl, (Option.some.inj hsome).symm⟩
    · rintro ⟨tags, hmem, rfl, rfl⟩
      have hpositive : 0 < times since name tags :=
        List.countP_pos_iff.mpr ⟨_, hmem, decide_eq_true ⟨rfl, .refl tags⟩⟩
      rw [htotal (hplain _ hmem), if_neg hpositive.ne']

/-- What came before the recorder was cleared is not listed. A set of tags has one total, though its
tags were given in two orders with other operations in between. -/
theorem summary_foldl_perform_reordered :
    let ops : List Operation := [.increment ⟨"session", []⟩, .clear,
      .increment ⟨"probe", [("kind", "org"), ("result", "member")]⟩, .summary,
      .increment ⟨"probe", [("kind", "team"), ("result", "member")]⟩,
      .increment ⟨"probe", [("result", "member"), ("kind", "org")]⟩]
    let summary := (ops.foldl perform {}).summary
    (∀ i ∈ sinceClear ops, i.tags.IsPlain) ∧ (sinceClear ops).length < 2 ^ 53 ∧
      "session" ∉ summary.map Prod.fst ∧
      listed? summary "probe" "kind=org,result=member" = some (.finite 2) := by
  intro ops summary
  have hplain : ∀ i ∈ sinceClear ops, i.tags.IsPlain := by decide
  have hfew : (sinceClear ops).length < 2 ^ 53 := by decide
  obtain ⟨-, hnames, hlisted, -⟩ := summary_foldl_perform hplain hfew
  have htext : Tags.text [("kind", "org"), ("result", "member")] = "kind=org,result=member" :=
    (congrArg Prod.snd (Count.key_probe "org" "member")).trans (by decide)
  refine ⟨hplain, hfew, ?_, (hlisted _ _ _).mpr ⟨_, ?_, htext, ?_⟩⟩
  · rw [hnames]
    decide
  · decide
  · decide

end Admission.Metrics
