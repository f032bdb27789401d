import Admission.Proofs.Text.Percent
import Admission.Url.Form
import Mathlib.Data.List.TakeDrop
import Mathlib.Data.List.TakeWhile

/-!
# Queries as named values

What is encoded for a query has none of the characters that separate anything in an address, and it
is read back as it was (`decodeText_encodeText`). So the names that a query is read to have are
those that it was made of (`decode_encodePair`, `name_of_mem_decode_encode`).
-/

set_option autoImplicit false
set_option relaxedAutoImplicit false

namespace Admission.Url

/-! ### Texts that are cut at a character -/

/-- A text is cut at the first character that does not fit. -/
theorem span_append_cons {p : Char → Bool} {front rest : List Char} {c : Char}
    (hfront : ∀ d ∈ front, p d = true) (hc : p c = false) :
    (front ++ c :: rest).span p = (front, c :: rest) := by
  rw [List.span_eq_takeWhile_dropWhile, List.takeWhile_append_of_pos hfront,
    List.dropWhile_append_of_pos hfront, List.takeWhile_cons_of_neg (by simp [hc]),
    List.dropWhile_cons_of_neg (by simp [hc]), List.append_nil]

/-- A text of fitting characters is not cut. -/
theorem span_eq_self {p : Char → Bool} {cs : List Char} (h : ∀ c ∈ cs, p c = true) :
    cs.span p = (cs, []) := by
  rw [List.span_eq_takeWhile_dropWhile, List.takeWhile_eq_self_iff.mpr h,
    List.dropWhile_eq_nil_iff.mpr h]

/-- A text has a first character that does not fit, unless all do. -/
theorem forall_or_exists_first (p : Char → Bool) (cs : List Char) :
    (∀ c ∈ cs, p c = true) ∨
      ∃ front c rest, cs = front ++ c :: rest ∧ (∀ d ∈ front, p d = true) ∧ p c = false := by
  induction cs with
  | nil => exact .inl nofun
  | cons c cs ih =>
    by_cases hc : p c = true
    · rcases ih with hall | ⟨front, d, rest, rfl, hfront, hd⟩
      · exact .inl (List.forall_mem_cons.mpr ⟨hc, hall⟩)
      · exact .inr ⟨c :: front, d, rest, rfl, List.forall_mem_cons.mpr ⟨hc, hfront⟩, hd⟩
    · exact .inr ⟨[], c, cs, rfl, nofun, Bool.eq_false_iff.mpr hc⟩

end Admission.Url

namespace Admission.Url.Form

open Text

/-! ### Encoded texts -/

/-- The characters of encoded texts. -/
def isEncoded (c : Char) : Bool :=
  isUnreserved c || c == '%' || c == '+'

theorem isEncoded_upperHex : ∀ n < 16, isEncoded (upperHex n) = true := by decide

theorem isEncoded_of_mem_encodeText {c : Char} {cs : List Char} (h : c ∈ encodeText cs) :
    isEncoded c = true := by
  obtain ⟨d, -, hd⟩ := List.mem_flatMap.mp h
  unfold encodeChar at hd
  split at hd
  · rw [List.mem_singleton.mp hd]
    rfl
  · have hall : ∀ e ∈ percentEncode isUnreserved [d], isEncoded e = true :=
      forall_percentEncode (fun e _ he ↦ by simp [isEncoded, he]) rfl isEncoded_upperHex
    exact hall c (by simpa [percentEncode] using hd)

/-- A text is read back from its encoded form. -/
theorem decodeText_encodeText (cs : List Char) : decodeText (encodeText cs) = cs := by
  have hchar (c : Char) (rest : List Char) :
      percentOctets ((encodeChar c).map (fun c ↦ if c = '+' then ' ' else c) ++ rest) =
        String.utf8EncodeChar c ++ percentOctets rest := by
    unfold encodeChar percentChar
    split
    · rename_i hblank
      rw [hblank]
      exact percentOctets_cons (by decide) rest
    · split
      · rename_i hkept
        have hplus : c ≠ '+' := by
          rintro rfl
          cases hkept
        have hpercent : c ≠ '%' := by
          rintro rfl
          cases hkept
        rw [List.map_singleton, if_neg hplus]
        exact percentOctets_cons hpercent rest
      · have hplus : ∀ d ∈ (String.utf8EncodeChar c).flatMap percentOctet,
            (if d = '+' then ' ' else d) = d :=
          forall_percentOctet (by decide) (by decide) _
        rw [List.map_congr_left hplus, List.map_id', percentOctets_flatMap]
  have hoctets : percentOctets ((encodeText cs).map fun c ↦ if c = '+' then ' ' else c) =
      encodeUtf8 cs := by
    induction cs with
    | nil => rfl
    | cons c cs ih =>
      rw [encodeText, List.flatMap_cons, List.map_append, hchar]
      exact congrArg (String.utf8EncodeChar c ++ ·) ih
  rw [decodeText, percentDecode, hoctets, decodeUtf8Lossy_encodeUtf8]

theorem ne_equals_of_isEncoded {c : Char} (h : isEncoded c = true) : (c != '=') = true := by
  rw [bne_iff_ne]
  rintro rfl
  cases h

/-! ### Pairs -/

/-- The characters of encoded pairs. -/
def isPairChar (c : Char) : Bool :=
  isEncoded c || c == '='

theorem isPairChar_of_mem_encodePair {c : Char} {name value : List Char}
    (h : c ∈ encodePair name value) : isPairChar c = true := by
  unfold encodePair at h
  rcases List.mem_append.mp h with h | h
  · simp [isPairChar, isEncoded_of_mem_encodeText h]
  · rcases List.mem_cons.mp h with rfl | h
    · rfl
    · simp [isPairChar, isEncoded_of_mem_encodeText h]

/-- A pair is read back from its encoded form. -/
theorem decodePair_encodePair (name value : List Char) :
    decodePair (encodePair name value) = (name, value) := by
  have hspan : (encodePair name value).span (· != '=') =
      (encodeText name, '=' :: encodeText value) :=
    span_append_cons (fun c hc ↦ ne_equals_of_isEncoded (isEncoded_of_mem_encodeText hc)) rfl
  unfold decodePair
  rw [hspan]
  exact Prod.ext (decodeText_encodeText name) (decodeText_encodeText value)

theorem not_mem_encodePair (name value : List Char) : '&' ∉ encodePair name value := by
  intro h
  cases isPairChar_of_mem_encodePair h

theorem encodePair_ne_nil (name value : List Char) : encodePair name value ≠ [] := by
  simp [encodePair]

/-- The pairs of a query in the order in which they stand there. -/
theorem decode_eq (pairs : List (List Char × List Char)) (h : pairs ≠ []) :
    decode (['&'].intercalate (pairs.map fun p ↦ encodePair p.1 p.2)) =
      pairs.foldl (fun all p ↦ add all p.1 p.2) [] := by
  have hsplit : (['&'].intercalate (pairs.map fun p ↦ encodePair p.1 p.2)).splitOn '&' =
      pairs.map fun p ↦ encodePair p.1 p.2 := by
    refine List.splitOn_intercalate '&' (fun l hl ↦ ?_) (by simpa using h)
    obtain ⟨p, -, rfl⟩ := List.mem_map.mp hl
    exact not_mem_encodePair p.1 p.2
  have hkept : ((pairs.map fun p ↦ encodePair p.1 p.2).filter fun p ↦ !p.isEmpty) =
      pairs.map fun p ↦ encodePair p.1 p.2 := by
    refine List.filter_eq_self.mpr fun l hl ↦ ?_
    obtain ⟨p, -, rfl⟩ := List.mem_map.mp hl
    simp [encodePair_ne_nil]
  have hpairs : (pairs.map fun p ↦ encodePair p.1 p.2).map decodePair = pairs := by
    rw [List.map_map]
    conv_rhs => rw [← List.map_id pairs]
    exact List.map_congr_left fun p _ ↦ decodePair_encodePair p.1 p.2
  unfold decode
  rw [hsplit, hkept, hpairs]

/-- A query of one pair has one name. -/
theorem decode_encodePair (name value : List Char) :
    decode (encodePair name value) = [(name, [value])] := by
  have h := decode_eq [(name, value)] (List.cons_ne_nil _ _)
  rw [List.map_singleton, List.intercalate_singleton] at h
  exact h

/-- Adding a value adds at most its name. -/
theorem name_of_mem_add {pairs : Pairs} {name value : List Char} {p : List Char × List (List Char)}
    (h : p ∈ add pairs name value) : p.1 = name ∨ ∃ q ∈ pairs, q.1 = p.1 := by
  induction pairs with
  | nil => exact .inl (by rw [List.mem_singleton.mp h])
  | cons q pairs ih =>
    unfold add at h
    split at h
    · rename_i hname
      rcases List.mem_cons.mp h with rfl | h
      · exact .inl hname
      · exact .inr ⟨p, List.mem_cons_of_mem q h, rfl⟩
    · rcases List.mem_cons.mp h with rfl | h
      · exact .inr ⟨_, List.mem_cons_self, rfl⟩
      · rcases ih h with h | ⟨r, hr, h⟩
        · exact .inl h
        · exact .inr ⟨r, List.mem_cons_of_mem q hr, h⟩

/-- The names of an encoded query are those that it was made of. -/
theorem name_of_mem_decode_encode {pairs : Pairs} {p : List Char × List (List Char)}
    (h : p ∈ decode (encode pairs)) : ∃ q ∈ pairs, q.1 = p.1 := by
  have key : ∀ (all : List (List Char × List Char)) (before : Pairs),
      p ∈ all.foldl (fun pairs q ↦ add pairs q.1 q.2) before →
        (∃ q ∈ before, q.1 = p.1) ∨ ∃ q ∈ all, q.1 = p.1 := by
    intro all
    induction all with
    | nil => exact fun before h ↦ .inl ⟨p, h, rfl⟩
    | cons q all ih =>
      intro before h
      rcases ih _ h with ⟨r, hr, hname⟩ | ⟨r, hr, hname⟩
      · rcases name_of_mem_add hr with hq | ⟨s, hs, hsr⟩
        · exact .inr ⟨q, List.mem_cons_self, hq.symm.trans hname⟩
        · exact .inl ⟨s, hs, hsr.trans hname⟩
      · exact .inr ⟨r, List.mem_cons_of_mem q hr, hname⟩
  let all := pairs.flatMap fun q ↦ q.2.map fun value ↦ (q.1, value)
  have hencode : encode pairs = ['&'].intercalate (all.map fun q ↦ encodePair q.1 q.2) := by
    unfold encode
    simp only [all, List.map_flatMap, List.map_map]
    rfl
  by_cases hall : all = []
  · rw [hencode, hall] at h
    simp [decode] at h
  · rw [hencode, decode_eq all hall] at h
    rcases key all [] h with ⟨q, hq, -⟩ | ⟨q, hq, hname⟩
    · cases hq
    · obtain ⟨r, hr, hq⟩ := List.mem_flatMap.mp hq
      obtain ⟨value, -, rfl⟩ := List.mem_map.mp hq
      exact ⟨r, hr, hname⟩

end Admission.Url.Form
