import Admission.Json.Reader
import Admission.Json.Writer
import Admission.Proofs.Text.Case

/-!
# Lists of texts in array notation

A list of texts between brackets is read as these texts, whatever blanks stand between its parts
(`readChars_array`), and the list as it is written is one of these notations (`isArray_write`). The
texts are of plain characters, which need no escape.
-/

set_option autoImplicit false
set_option relaxedAutoImplicit false

namespace Admission.Json

/-- Characters that stand for themselves in a string. -/
def isPlain (c : Char) : Bool :=
  32 ≤ c.toNat && c.toNat < 127 && c != '"' && c != '\\'

def IsPlain (t : String) : Prop :=
  ∀ c ∈ t.toList, isPlain c = true

def IsSpace (blanks : List Char) : Prop :=
  ∀ c ∈ blanks, isSpace c = true

/-- The items of a list with its closing bracket. -/
inductive IsItems : List String → List Char → Prop
  | last {blanks : List Char} (t : String) (hblanks : IsSpace blanks) :
      IsItems [t] ('"' :: (t.toList ++ '"' :: (blanks ++ [']'])))
  | more {before after cs : List Char} {texts : List String} (t : String) (hbefore : IsSpace before)
      (hafter : IsSpace after) (hrest : IsItems texts cs) :
      IsItems (t :: texts) ('"' :: (t.toList ++ '"' :: (before ++ ',' :: (after ++ cs))))

/-- A list of texts in array notation. -/
inductive IsArray : List String → List Char → Prop
  | empty {blanks : List Char} (hblanks : IsSpace blanks) : IsArray [] ('[' :: (blanks ++ [']']))
  | items {blanks cs : List Char} {texts : List String} (hblanks : IsSpace blanks)
      (hitems : IsItems texts cs) : IsArray texts ('[' :: (blanks ++ cs))

/-! ### Documents -/

/-- A document has a value if its characters are read as one without any halves of surrogate
pairs. -/
theorem readChars_eq_ok_iff {cs : List Char} {v : Value} :
    readChars cs = .ok v ↔ readWhole Text.charOf? cs = .ok v := by
  unfold readChars
  split
  · rename_i hmalformed
    rw [hmalformed]
    refine iff_of_false ?_ nofun
    unfold withHalves
    split <;> exact nofun
  · exact Iff.rfl

/-! ### Strings -/

section Reading

variable {char? : Nat → Option Char}

theorem isPlain_cases {c : Char} (h : isPlain c = true) :
    32 ≤ c.toNat ∧ c.toNat < 128 ∧ c ≠ '"' ∧ c ≠ '\\' := by
  simp only [isPlain, Bool.and_eq_true, decide_eq_true_eq, bne_iff_ne] at h
  obtain ⟨⟨⟨hlow, hhigh⟩, hquote⟩, hescape⟩ := h
  exact ⟨hlow, by omega, hquote, hescape⟩

theorem item?_plain {c : Char} (h : isPlain c = true) (rest : List Char) :
    item? char? (c :: rest) = some (c, rest) := by
  obtain ⟨hprinted, -, -, hescape⟩ := isPlain_cases h
  unfold item?
  split
  · contradiction
  · rename_i heq
    exact absurd (List.cons.inj heq).1 hescape
  · rename_i heq
    obtain ⟨rfl, rfl⟩ := List.cons.inj heq
    rw [if_neg (Nat.not_lt.mpr hprinted)]

theorem stringBody?_of_item {cs rest : List Char} {c : Char} (hquote : cs.head? ≠ some '"')
    (hitem : item? char? cs = some (c, rest)) :
    stringBody? char? cs = (stringBody? char? rest).map fun r ↦ (c :: r.1, r.2) := by
  rw [stringBody?, if_neg hquote]
  split
  · rename_i hnone
    rw [hitem] at hnone
    cases hnone
  · rename_i hsome
    rw [hitem] at hsome
    cases hsome
    rfl

theorem stringBody?_plain {cs : List Char} (h : ∀ c ∈ cs, isPlain c = true) (rest : List Char) :
    stringBody? char? (cs ++ '"' :: rest) = some (cs, rest) := by
  induction cs with
  | nil =>
    rw [stringBody?]
    simp
  | cons c cs ih =>
    obtain ⟨hc, hcs⟩ := List.forall_mem_cons.mp h
    have hquote : c ≠ '"' := (isPlain_cases hc).2.2.1
    rw [List.cons_append, stringBody?_of_item (by simpa using hquote) (item?_plain hc _), ih hcs]
    rfl

theorem readString_plain {t : String} (h : IsPlain t) (rest : List Char) :
    readString char? (t.toList ++ '"' :: rest) = .ok (t, rest) := by
  unfold readString
  rw [stringBody?_plain h]
  simp

theorem readValue_plain {t : String} (h : IsPlain t) (fuel : Nat) (rest : List Char) :
    readValue char? (fuel + 1) ('"' :: (t.toList ++ '"' :: rest)) = .ok (.str t, rest) := by
  rw [readValue]
  simp only [readString_plain h]
  rfl

/-! ### Lists -/

theorem skipSpace_append {blanks : List Char} (h : IsSpace blanks) {c : Char}
    (hc : isSpace c = false) (rest : List Char) : skipSpace (blanks ++ c :: rest) = c :: rest := by
  unfold skipSpace
  rw [List.dropWhile_append_of_pos h, List.dropWhile_cons_of_neg (by simp [hc])]

theorem IsItems.exists_cons {texts : List String} {cs : List Char} (h : IsItems texts cs) :
    ∃ rest, cs = '"' :: rest := by
  cases h with
  | last => exact ⟨_, rfl⟩
  | more => exact ⟨_, rfl⟩

theorem IsItems.exists_append {texts : List String} {cs : List Char} (h : IsItems texts cs) :
    ∃ front, cs = front ++ [']'] := by
  induction h with
  | @last blanks t hblanks => exact ⟨'"' :: (t.toList ++ '"' :: blanks), by simp⟩
  | @more before after cs texts t hbefore hafter hrest ih =>
    obtain ⟨front, rfl⟩ := ih
    exact ⟨'"' :: (t.toList ++ '"' :: (before ++ ',' :: (after ++ front))), by simp⟩

theorem IsArray.exists_append {texts : List String} {cs : List Char} (h : IsArray texts cs) :
    ∃ inside, cs = '[' :: (inside ++ [']']) := by
  cases h with
  | empty hblanks => exact ⟨_, rfl⟩
  | @items blanks cs texts hblanks hitems =>
    obtain ⟨front, rfl⟩ := hitems.exists_append
    exact ⟨blanks ++ front, by simp⟩

theorem IsItems.length_le {texts : List String} {cs : List Char} (h : IsItems texts cs) :
    texts.length ≤ cs.length := by
  induction h with
  | last => simp
  | more t hbefore hafter hrest ih =>
    simp only [List.length_cons, List.length_append]
    omega

theorem readItems_items {texts : List String} {cs : List Char} (h : IsItems texts cs)
    (hplain : ∀ t ∈ texts, IsPlain t) {fuel : Nat} (hfuel : texts.length < fuel) :
    readItems char? fuel cs = .ok (texts.map .str, []) := by
  induction h generalizing fuel with
  | last t hblanks =>
    obtain ⟨fuel, rfl⟩ : ∃ n, fuel = n + 2 := ⟨fuel - 2, by simp at hfuel; omega⟩
    rw [readItems, readValue_plain (hplain t (by simp))]
    simp only [bind, Except.bind, skipSpace_append hblanks (c := ']') (by decide)]
    rfl
  | more t hbefore hafter hrest ih =>
    obtain ⟨fuel, rfl⟩ : ∃ n, fuel = n + 2 := ⟨fuel - 2, by simp at hfuel; omega⟩
    obtain ⟨rest, hfirst⟩ := hrest.exists_cons
    have hrestPlain (s : String) (hs : s ∈ _) : IsPlain s := hplain s (List.mem_cons_of_mem _ hs)
    rw [readItems, readValue_plain (hplain t (by simp))]
    simp only [bind, Except.bind, skipSpace_append hbefore (c := ',') (by decide)]
    rw [hfirst, skipSpace_append hafter (by decide), ← hfirst,
      ih hrestPlain (by simpa using hfuel)]
    rfl

theorem readValue_items (fuel : Nat) {cs : List Char} (h : (skipSpace cs).head? ≠ some ']') :
    readValue char? (fuel + 1) ('[' :: cs) =
      (readItems char? fuel (skipSpace cs)).map fun r ↦ (.list r.1, r.2) := by
  rw [readValue]
  split
  · rename_i hclose
    rw [hclose] at h
    exact absurd rfl h
  · rfl

/-- A list in array notation is read as its texts. -/
theorem readChars_array {texts : List String} {cs : List Char} (h : IsArray texts cs)
    (hplain : ∀ t ∈ texts, IsPlain t) : readChars cs = .ok (.list (texts.map .str)) := by
  rw [readChars_eq_ok_iff]
  unfold readWhole
  cases h with
  | empty hblanks =>
    rw [skipSpace, List.dropWhile_cons_of_neg (by decide), readValue]
    simp only [skipSpace_append hblanks (c := ']') (by decide)]
    rfl
  | @items blanks cs _ hblanks hitems =>
    obtain ⟨rest, hfirst⟩ := hitems.exists_cons
    have hlength := hitems.length_le
    have hskip : skipSpace (blanks ++ cs) = cs := by
      rw [hfirst, skipSpace_append hblanks (by decide)]
    rw [skipSpace, List.dropWhile_cons_of_neg (by decide), readValue_items, hskip,
      readItems_items hitems hplain (by simp; omega)]
    · rfl
    · rw [hskip, hfirst]
      simp

end Reading

/-! ### Writing -/

theorem writeChar_plain {c : Char} (h : isPlain c = true) : writeChar c = [c] :=
  Text.forall_ascii (P := fun c ↦ isPlain c = true → writeChar c = [c]) (by decide +kernel)
    (isPlain_cases h).2.1 h

theorem toList_writeString {t : String} (h : IsPlain t) :
    (writeString t).toList = '"' :: (t.toList ++ ['"']) := by
  have hbody : t.toList.flatMap writeChar = t.toList := by
    rw [List.flatMap_congr fun c hc ↦ writeChar_plain (h c hc)]
    simp
  unfold writeString
  rw [hbody]
  simp

/-- The list as it is written is in array notation. -/
theorem isArray_write {texts : List String} (hplain : ∀ t ∈ texts, IsPlain t) :
    IsArray texts (write (.list (texts.map .str))).toList := by
  have hnone : IsSpace [] := nofun
  have hblank : IsSpace [' '] := by simp [IsSpace, isSpace]
  have hitems (t : String) (texts : List String) (hplain : ∀ s ∈ t :: texts, IsPlain s) :
      IsItems (t :: texts)
        ((String.intercalate ", " (writeAll ((t :: texts).map .str))).toList ++ [']']) := by
    induction texts generalizing t with
    | nil =>
      simpa [writeAll, write, toList_writeString (hplain t (by simp))] using IsItems.last t hnone
    | cons s texts ih =>
      have hrest := ih s fun u hu ↦ hplain u (List.mem_cons_of_mem _ hu)
      simpa [writeAll, write, toList_writeString (hplain t (by simp))] using
        IsItems.more t hnone hblank hrest
  cases texts with
  | nil => exact .empty hnone
  | cons t texts => simpa [write] using IsArray.items hnone (hitems t texts hplain)

end Admission.Json
