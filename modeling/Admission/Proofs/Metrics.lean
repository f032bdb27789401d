import Admission.Metrics
import Mathlib.Data.List.Induction
import Mathlib.Data.List.Nodup
import Mathlib.Data.List.Sort
import Mathlib.Logic.Function.Iterate

/-!
# Running totals

The total under a key is what as many increments make of zero as there were with that key
(`lookup_foldl_raise`), and there is none without an increment. What is counted has one of a few
kinds and results, and no two of them share a key (`nodup_keys`). So the totals tell the counts
apart (`total_foldl_add`).
-/

set_option autoImplicit false
set_option relaxedAutoImplicit false

namespace Admission

/-- An increment of a counter: its name and its tags. -/
structure Increment where
  name : String
  tags : Tags
  deriving DecidableEq

/-- The name and the text of the tags that an increment is entered under. -/
def Increment.key (i : Increment) : String × String :=
  (i.name, i.tags.text)

/-- The increment that a count makes. -/
def Count.toIncrement (c : Count) : Increment :=
  ⟨c.name, c.tags⟩

/-- The name and the text of the tags that a count is entered under. -/
def Count.key (c : Count) : String × String :=
  (c.name, c.tags.text)

theorem Count.key_decision (result : String) :
    (Count.decision result).key = ("gatepass.authorization", "result" ++ "=" ++ result) := by
  unfold key tags Tags.text
  rw [List.mergeSort_singleton]
  rfl

theorem Count.key_probe (kind result : String) :
    (Count.probe kind result).key =
      ("gatepass.membership_probe",
        "kind" ++ "=" ++ kind ++ "," ++ ("result" ++ "=" ++ result)) := by
  have hsorted : List.mergeSort [("kind", kind), ("result", result)]
      (fun a b ↦ !decide (b.1 < a.1)) = [("kind", kind), ("result", result)] := by
    refine List.mergeSort_of_pairwise (.cons ?_ (List.pairwise_singleton _ _))
    intro tag htag
    rw [List.mem_singleton.mp htag]
    show (!decide ("result" < "kind")) = true
    decide
  unfold key tags Tags.text
  rw [hsorted]
  rfl

/-- Everything that is ever counted. -/
def Count.all : List Count :=
  (["org", "team"].flatMap fun kind ↦
    ["member", "not_member", "error"].map fun result ↦ .probe kind result) ++
  ["allowed", "denied", "indeterminate"].map .decision

namespace Metrics

/-- The total under the key of a count, if there is one. -/
def total? (m : Metrics) (c : Count) : Option Binary64 :=
  m.totals.lookup c.key

/-- The counters after an increment. -/
def raise (m : Metrics) (i : Increment) : Metrics :=
  m.increment i.name i.tags

/-- The total after a number of increments. -/
def increments (n : Nat) : Binary64 :=
  (fun total : Binary64 ↦ total.add (Binary64.ofInt 1))^[n] Binary64.zero

theorem increments_succ (n : Nat) : increments (n + 1) = (increments n).add (Binary64.ofInt 1) :=
  Function.iterate_succ_apply' ..

theorem lookup_addTo_self (totals : List ((String × String) × Binary64)) (key : String × String)
    (value : Binary64) :
    (addTo totals key value).lookup key =
      some (((totals.lookup key).getD Binary64.zero).add value) := by
  induction totals with
  | nil => simp [addTo]
  | cons entry rest ih =>
    obtain ⟨k, total⟩ := entry
    by_cases hk : k = key
    · simp [addTo, hk]
    · have hne : (key == k) = false := beq_false_of_ne (Ne.symm hk)
      simp only [addTo, hk, if_false, List.lookup_cons, hne, ih]

theorem lookup_addTo_of_ne {totals : List ((String × String) × Binary64)}
    {key other : String × String} (value : Binary64) (h : other ≠ key) :
    (addTo totals key value).lookup other = totals.lookup other := by
  induction totals with
  | nil =>
    have hne : (other == key) = false := beq_false_of_ne h
    simp only [addTo, List.lookup_cons, hne, List.lookup_nil]
  | cons entry rest ih =>
    obtain ⟨k, total⟩ := entry
    by_cases hk : k = key
    · have hne : (other == k) = false := beq_false_of_ne (hk ▸ h)
      simp only [addTo, hk, if_true, List.lookup_cons]
      rw [← hk, hne]
    · simp only [addTo, hk, if_false, List.lookup_cons, ih]

/-- The total under a key is what its increments make of zero. -/
theorem lookup_foldl_raise (all : List Increment) (key : String × String) :
    (all.foldl raise {}).totals.lookup key =
      if all.countP (·.key = key) = 0 then none
      else some (increments (all.countP (·.key = key))) := by
  induction all using List.reverseRecOn with
  | nil => rfl
  | append_singleton all i ih =>
    rw [List.foldl_append, List.countP_append, List.countP_singleton]
    show (addTo (all.foldl raise {}).totals i.key (Binary64.ofInt 1)).lookup key = _
    by_cases hi : i.key = key
    · subst hi
      rw [lookup_addTo_self, ih]
      simp only [decide_true, if_true, Nat.add_eq_zero_iff, Nat.one_ne_zero, and_false, if_false,
        increments_succ]
      split
      · rename_i hzero
        rw [hzero]
        rfl
      · rfl
    · rw [lookup_addTo_of_ne _ (Ne.symm hi), ih]
      simp only [hi, decide_false, Bool.false_eq_true, if_false, Nat.add_zero]

/-- What is counted makes totals of its increments. -/
theorem lookup_foldl_add (counts : List Count) (key : String × String) :
    (counts.foldl Metrics.add {}).totals.lookup key =
      if counts.countP (·.key = key) = 0 then none
      else some (increments (counts.countP (·.key = key))) := by
  have hfold : (counts.map Count.toIncrement).foldl raise {} = counts.foldl Metrics.add {} := by
    rw [List.foldl_map]
    rfl
  rw [← hfold, lookup_foldl_raise, List.countP_map]
  rfl

/-- No two things that are counted are entered under the same key. -/
theorem nodup_keys : (Count.all.map Count.key).Nodup := by
  simp only [Count.all, List.flatMap_cons, List.flatMap_nil, List.map_cons, List.map_nil,
    List.cons_append, List.nil_append, Count.key_probe, Count.key_decision]
  decide +kernel

/-- The totals of what is counted tell how often it was. -/
theorem total_foldl_add {counts : List Count} (hcounts : ∀ c ∈ counts, c ∈ Count.all) {c : Count}
    (hc : c ∈ Count.all) :
    (counts.foldl Metrics.add {}).total? c =
      if counts.count c = 0 then none else some (increments (counts.count c)) := by
  have hcount : counts.countP (·.key = c.key) = counts.count c := by
    refine List.countP_congr fun d hd ↦ ?_
    rw [decide_eq_true_eq, beq_iff_eq]
    constructor
    · exact List.inj_on_of_nodup_map nodup_keys (hcounts d hd) hc
    · rintro rfl
      rfl
  rw [total?, lookup_foldl_add, hcount]

end Metrics

end Admission
