import Admission.Json.Reader
import Admission.Proofs.Number.Digits
import Mathlib.Data.List.TakeDrop

/-!
# Words and numbers at the beginning of a text

What is read of a word or a number at the beginning of a text does not depend on what follows a
comma or a blank behind it (`readScalar_append`). What was read is a word, an integer that denotes
its value digit by digit, or a floating point number (`isScalar_of_readScalar`).
-/

set_option autoImplicit false
set_option relaxedAutoImplicit false

namespace Admission.Json

open Numeral (isDigit)

/-- Commas and blanks. -/
def isSeparator (c : Char) : Bool :=
  c == ',' || Text.isBlank c

/-- The text is empty or begins with a separator. -/
def Separated (cs : List Char) : Prop :=
  ∀ c ∈ cs.head?, isSeparator c = true

/-- What was read, with a text behind what follows it. -/
def followedBy {α : Type} (s : List Char) (r : α × List Char) : α × List Char :=
  (r.1, r.2 ++ s)

variable {cs s : List Char}

theorem separated_cases (h : Separated s) :
    s = [] ∨ ∃ c rest, s = c :: rest ∧ isSeparator c = true := by
  cases s with
  | nil => exact .inl rfl
  | cons c rest => exact .inr ⟨c, rest, rfl, h c rfl⟩

/-- A word without separators that begins the text with something behind it begins the text. -/
theorem exists_of_append_eq (word : List Char) {rest : List Char}
    (hword : word.all (fun c ↦ !isSeparator c) = true) (h : Separated s)
    (heq : cs ++ s = word ++ rest) : ∃ r, cs = word ++ r ∧ rest = r ++ s := by
  rcases List.append_eq_append_iff.mp heq with ⟨more, hmore, hs⟩ | hbehind
  · cases more with
    | nil => exact ⟨[], by simpa using hmore.symm, by simpa using hs.symm⟩
    | cons c more =>
      have hc := List.all_eq_true.mp hword c (by simp [hmore])
      rw [h c (by simp [hs])] at hc
      cases hc
  · exact hbehind

theorem head?_append_ne {c : Char} (hc : isSeparator c = false) (h : Separated s)
    (hcs : cs.head? ≠ some c) : (cs ++ s).head? ≠ some c := by
  intro hhead
  obtain ⟨rest, hrest⟩ := List.head?_eq_some_iff.mp hhead
  obtain ⟨r, rfl, -⟩ := exists_of_append_eq [c] (by simpa using hc) h hrest
  exact hcs rfl

theorem not_isDigit_of_isSeparator (c : Char) (h : isSeparator c = true) : isDigit c = false := by
  rw [Bool.eq_false_iff]
  intro hdigit
  exact absurd hdigit (Text.forall_ascii (P := fun c ↦ isSeparator c = true → ¬isDigit c = true)
    (by decide +kernel) (Numeral.lt_of_isDigit hdigit) h)

/-! ### Numbers -/

theorem span_isDigit_append (h : Separated s) :
    (cs ++ s).span isDigit = followedBy s (cs.span isDigit) := by
  rw [List.span_eq_takeWhile_dropWhile, List.span_eq_takeWhile_dropWhile]
  induction cs with
  | nil =>
    rcases separated_cases h with rfl | ⟨c, rest, rfl, hc⟩
    · rfl
    · simp [followedBy, not_isDigit_of_isSeparator c hc]
  | cons c cs ih =>
    obtain ⟨htaken, hdropped⟩ := Prod.mk.injEq .. ▸ ih
    by_cases hc : isDigit c = true
    · simp [followedBy, hc, htaken, hdropped]
    · simp [followedBy, hc]

theorem wholePart?_of_ne (hcs : cs.head? ≠ some '0') :
    wholePart? cs =
      if cs.head?.any isDigit then some (cs.span isDigit) else none := by
  unfold wholePart?
  split
  · exact absurd rfl hcs
  · rfl
  · rfl

theorem wholePart?_append (h : Separated s) :
    wholePart? (cs ++ s) = (wholePart? cs).map (followedBy s) := by
  by_cases hzero : cs.head? = some '0'
  · obtain ⟨rest, rfl⟩ := List.head?_eq_some_iff.mp hzero
    rfl
  · have hdigit : (cs ++ s).head?.any isDigit = cs.head?.any isDigit := by
      cases cs with
      | nil =>
        rcases separated_cases h with rfl | ⟨c, rest, rfl, hc⟩
        · rfl
        · simpa using not_isDigit_of_isSeparator c hc
      | cons c cs => rfl
    rw [wholePart?_of_ne hzero, wholePart?_of_ne (head?_append_ne (by decide) h hzero), hdigit,
      span_isDigit_append h]
    split <;> rfl

theorem fractionPart_of_ne (hcs : cs.head? ≠ some '.') : fractionPart cs = ([], cs) := by
  unfold fractionPart
  split
  · exact absurd rfl hcs
  · rfl

theorem fractionPart_append (h : Separated s) :
    fractionPart (cs ++ s) = followedBy s (fractionPart cs) := by
  by_cases hpoint : cs.head? = some '.'
  · obtain ⟨rest, rfl⟩ := List.head?_eq_some_iff.mp hpoint
    simp only [List.cons_append, fractionPart, span_isDigit_append h, followedBy]
    split <;> rfl
  · rw [fractionPart_of_ne hpoint, fractionPart_of_ne (head?_append_ne (by decide) h hpoint)]
    rfl

theorem signed_of_ne (hminus : cs.head? ≠ some '-') (hplus : cs.head? ≠ some '+') :
    Numeral.signed cs = (false, cs) := by
  unfold Numeral.signed
  split
  · exact absurd rfl hminus
  · exact absurd rfl hplus
  · rfl

theorem signed_append (h : Separated s) :
    Numeral.signed (cs ++ s) = followedBy s (Numeral.signed cs) := by
  by_cases hminus : cs.head? = some '-'
  · obtain ⟨rest, rfl⟩ := List.head?_eq_some_iff.mp hminus
    rfl
  · by_cases hplus : cs.head? = some '+'
    · obtain ⟨rest, rfl⟩ := List.head?_eq_some_iff.mp hplus
      rfl
    · rw [signed_of_ne hminus hplus, signed_of_ne (head?_append_ne (by decide) h hminus)
        (head?_append_ne (by decide) h hplus)]
      rfl

theorem exponentPart_append (h : Separated s) :
    exponentPart (cs ++ s) = followedBy s (exponentPart cs) := by
  cases cs with
  | nil =>
    rcases separated_cases h with rfl | ⟨c, rest, rfl, hc⟩
    · rfl
    · have hletter : ¬(c = 'e' ∨ c = 'E') := by
        rintro (rfl | rfl) <;> exact absurd hc (by decide)
      simp [exponentPart, hletter, followedBy]
  | cons e cs =>
    simp only [List.cons_append, exponentPart, signed_append h, followedBy, span_isDigit_append h]
    split
    · split <;> rfl
    · rfl

theorem readNumber_append (negative : Bool) (h : Separated s) :
    readNumber negative (cs ++ s) = (readNumber negative cs).map (followedBy s) := by
  unfold readNumber
  rw [wholePart?_append h]
  rcases wholePart? cs with _ | ⟨whole, rest⟩
  · rfl
  · simp only [Option.map_some, followedBy, fractionPart_append h, exponentPart_append h]
    split
    · split <;> rfl
    · rfl

/-! ### Words -/

/-- What is read of a word or a number does not depend on what follows a separator behind it. -/
theorem readScalar_append (h : Separated s) :
    readScalar (cs ++ s) = (readScalar cs).map (followedBy s) := by
  have hbehind (word : List Char) {rest : List Char} (heq : cs ++ s = word ++ rest)
      (hword : word.all (fun c ↦ !isSeparator c) = true) : ∃ r, cs = word ++ r ∧ rest = r ++ s :=
    exists_of_append_eq word hword h heq
  generalize htext : cs ++ s = text at hbehind
  conv_lhs => unfold readScalar
  -- a word holds no separator, so one that begins the longer text begins the shorter one
  split
  · obtain ⟨r, rfl, rfl⟩ := hbehind ['n', 'u', 'l', 'l'] rfl (by decide)
    rfl
  · obtain ⟨r, rfl, rfl⟩ := hbehind ['t', 'r', 'u', 'e'] rfl (by decide)
    rfl
  · obtain ⟨r, rfl, rfl⟩ := hbehind ['f', 'a', 'l', 's', 'e'] rfl (by decide)
    rfl
  · obtain ⟨r, rfl, rfl⟩ := hbehind ['N', 'a', 'N'] rfl (by decide)
    rfl
  · obtain ⟨r, rfl, rfl⟩ := hbehind ['I', 'n', 'f', 'i', 'n', 'i', 't', 'y'] rfl (by decide)
    rfl
  · obtain ⟨r, rfl, rfl⟩ := hbehind ['-', 'I', 'n', 'f', 'i', 'n', 'i', 't', 'y'] rfl (by decide)
    rfl
  · rename_i hinfinity
    obtain ⟨r, rfl, rfl⟩ := hbehind ['-'] rfl (by decide)
    have hnumber : readScalar ('-' :: r) = readNumber true r := by
      rw [readScalar]
      rintro rest rfl
      exact hinfinity _ rfl
    exact (readNumber_append true h).trans (congrArg _ hnumber.symm)
  · rename_i hnull htrue hfalse hnan hinfinity hminusInfinity hminus
    subst htext
    -- and one that does not begin the longer text does not begin the shorter one
    have hnot (word : List Char) (hword : ∀ rest, cs ++ s = word ++ rest → False)
        (rest : List Char) (heq : cs = word ++ rest) : False :=
      hword (rest ++ s) (by rw [heq, List.append_assoc])
    have hnumber : readScalar cs = readNumber false cs := by
      rw [readScalar]
      · exact hnot ['n', 'u', 'l', 'l'] hnull
      · exact hnot ['t', 'r', 'u', 'e'] htrue
      · exact hnot ['f', 'a', 'l', 's', 'e'] hfalse
      · exact hnot ['N', 'a', 'N'] hnan
      · exact hnot ['I', 'n', 'f', 'i', 'n', 'i', 't', 'y'] hinfinity
      · exact hnot ['-', 'I', 'n', 'f', 'i', 'n', 'i', 't', 'y'] hminusInfinity
      · exact hnot ['-'] hminus
    rw [hnumber, readNumber_append false h]

/-! ### What was read -/

/-- Words and numbers with their values; a floating point number may have any notation. -/
inductive IsScalar : List Char → Value → Prop
  | null : IsScalar ['n', 'u', 'l', 'l'] .null
  | yes : IsScalar ['t', 'r', 'u', 'e'] (.bool true)
  | no : IsScalar ['f', 'a', 'l', 's', 'e'] (.bool false)
  | int {negative : Bool} {digits : List Char} (hwritten : Numeral.IsWritten digits)
      (hlength : digits.length ≤ Numeral.digitLimit) :
      IsScalar ((if negative then ['-'] else []) ++ digits)
        (.int (Numeral.applySign negative (Numeral.ofDigits digits)))
  | float (cs : List Char) (x : Binary64) : IsScalar cs (.float x)

variable {rest : List Char} {v : Value}

theorem wholePart?_written {whole : List Char} (h : wholePart? cs = some (whole, rest)) :
    cs = whole ++ rest ∧ Numeral.IsWritten whole := by
  unfold wholePart? at h
  split at h
  · cases h
    exact ⟨rfl, by simp, by simp [isDigit], fun _ ↦ rfl⟩
  · rename_i c tail hzero
    split at h
    · rename_i hc
      rw [List.span_eq_takeWhile_dropWhile] at h
      cases h
      refine ⟨List.takeWhile_append_dropWhile.symm, by simp [hc], ?_, ?_⟩
      · intro d hd
        exact List.mem_takeWhile_imp hd
      · intro hhead
        rw [List.takeWhile_cons_of_pos hc] at hhead
        exact (hzero (by simpa using hhead)).elim
    · cases h
  · cases h

theorem fractionPart_suffix (cs : List Char) :
    (fractionPart cs).2 <:+ cs ∧ ((fractionPart cs).1 = [] → (fractionPart cs).2 = cs) := by
  unfold fractionPart
  split
  · rename_i rest
    rw [List.span_eq_takeWhile_dropWhile]
    dsimp only
    split
    · exact ⟨List.suffix_rfl, fun _ ↦ rfl⟩
    · rename_i hdigits
      exact ⟨(List.dropWhile_suffix _).trans (List.suffix_cons ..),
        fun hnone ↦ absurd hnone (by simpa using hdigits)⟩
  · exact ⟨List.suffix_rfl, fun _ ↦ rfl⟩

theorem signed_suffix (cs : List Char) : (Numeral.signed cs).2 <:+ cs := by
  unfold Numeral.signed
  split
  · exact List.suffix_cons ..
  · exact List.suffix_cons ..
  · exact List.suffix_rfl

theorem exponentPart_suffix (cs : List Char) :
    (exponentPart cs).2 <:+ cs ∧ ((exponentPart cs).1 = none → (exponentPart cs).2 = cs) := by
  unfold exponentPart
  split
  · rename_i e rest
    simp only [List.span_eq_takeWhile_dropWhile]
    split
    · split
      · exact ⟨List.suffix_rfl, fun _ ↦ rfl⟩
      · exact ⟨((List.dropWhile_suffix _).trans (signed_suffix rest)).trans (List.suffix_cons ..),
          nofun⟩
    · exact ⟨List.suffix_rfl, fun _ ↦ rfl⟩
  · exact ⟨List.suffix_rfl, fun _ ↦ rfl⟩

theorem isScalar_of_readNumber {negative : Bool} (h : readNumber negative cs = .ok (v, rest)) :
    ∃ front, cs = front ++ rest ∧
      IsScalar ((if negative then ['-'] else []) ++ front) v := by
  unfold readNumber at h
  split at h
  · cases h
  · rename_i whole behind hwhole
    obtain ⟨rfl, hwritten⟩ := wholePart?_written hwhole
    obtain ⟨hfraction, hnofraction⟩ := fractionPart_suffix behind
    obtain ⟨hexponent, hnoexponent⟩ := exponentPart_suffix (fractionPart behind).2
    dsimp only at h
    split at h
    · rename_i hinteger
      split at h
      · cases h
      · rename_i hlength
        simp only [Bool.and_eq_true, List.isEmpty_iff, Option.isNone_iff_eq_none] at hinteger
        rw [hnoexponent hinteger.2, hnofraction hinteger.1] at h
        cases h
        exact ⟨whole, rfl, .int hwritten (Nat.not_lt.mp hlength)⟩
    · cases h
      obtain ⟨front, hfront⟩ := (hexponent.trans hfraction).trans (List.suffix_append whole behind)
      exact ⟨front, hfront.symm, .float _ _⟩

/-- A word or a number that was read stands in front of what follows. -/
theorem isScalar_of_readScalar (h : readScalar cs = .ok (v, rest)) :
    ∃ front, cs = front ++ rest ∧ IsScalar front v := by
  unfold readScalar at h
  split at h
  · cases h
    exact ⟨_, rfl, .null⟩
  · cases h
    exact ⟨_, rfl, .yes⟩
  · cases h
    exact ⟨_, rfl, .no⟩
  · cases h
    exact ⟨['N', 'a', 'N'], rfl, .float _ _⟩
  · cases h
    exact ⟨['I', 'n', 'f', 'i', 'n', 'i', 't', 'y'], rfl, .float _ _⟩
  · cases h
    exact ⟨['-', 'I', 'n', 'f', 'i', 'n', 'i', 't', 'y'], rfl, .float _ _⟩
  · obtain ⟨front, rfl, hscalar⟩ := isScalar_of_readNumber h
    exact ⟨'-' :: front, rfl, hscalar⟩
  · obtain ⟨front, rfl, hscalar⟩ := isScalar_of_readNumber h
    exact ⟨front, rfl, hscalar⟩

/-- There are no strings in words and numbers. -/
theorem readScalar_ne_loneHalf (cs : List Char) : readScalar cs ≠ .error .loneHalf := by
  have hnumber (negative : Bool) (cs : List Char) :
      readNumber negative cs ≠ .error .loneHalf := by
    unfold readNumber
    split
    · exact nofun
    · dsimp only
      split
      · split <;> exact nofun
      · exact nofun
  unfold readScalar
  split
  case h_7 => exact hnumber true _
  case h_8 => exact hnumber false _
  all_goals exact nofun

end Admission.Json
