import Admission.Text.Case
import Admission.Text.Percent

/-!
# Encoded text

What percent encoding writes stands for itself everywhere that keeps percent signs and hexadecimal
digits (`forall_percentEncode`), and reading it back yields the octets
(`percentOctets_percentEncode`) and from these the text (`decodeUtf8Lossy_encodeUtf8`,
`percentDecode_percentEncode`).
-/

set_option autoImplicit false
set_option relaxedAutoImplicit false

namespace Admission.Text

/-! ### Octets of characters -/

theorem charOf?_toNat (c : Char) : charOf? c.toNat = some c := by
  have hvalid : c.toNat.isValidChar := c.valid
  unfold charOf?
  rw [dif_pos hvalid]
  exact congrArg some (Char.ext rfl)

/-- The numbers of characters leave the surrogates out. -/
theorem toNat_cases (c : Char) : c.toNat < 0xD800 ∨ 0xDFFF < c.toNat ∧ c.toNat < 0x110000 :=
  c.valid

theorem utf8Char?_toNat {c : Char} {least n : Nat} (hn : n = c.toNat) (h : least ≤ c.toNat) :
    utf8Char? charOf? least n = some c := by
  unfold utf8Char?
  rw [hn, if_pos h, charOf?_toNat]

theorem continuation?_of_toNat {b : UInt8} {n : Nat} (hb : b.toNat = n + 128) (hn : n < 64) :
    continuation? b = some n := by
  unfold continuation?
  rw [hb, if_pos (by omega)]
  congr 1
  omega

theorem continuationRun_succ {low high more : Nat} {b : UInt8} {rest : List UInt8}
    (hlow : low ≤ b.toNat) (hhigh : b.toNat ≤ high) :
    continuationRun low high (more + 1) (b :: rest) = continuationRun 0x80 0xBF more rest + 1 := by
  simp [continuationRun, hlow, hhigh]

@[simp] theorem continuationRun_zero (low high : Nat) (rest : List UInt8) :
    continuationRun low high 0 rest = 0 := by
  simp [continuationRun]

/-- The octets of a character are read as that character if the first one announces the others. -/
theorem decodeUtf8Lossy_char {c : Char} {a : UInt8} {tail rest : List UInt8} {low high : Nat}
    (ha : 0x80 ≤ a.toNat) (hlead : utf8Lead? a.toNat = some (tail.length, low, high))
    (hrun : continuationRun low high tail.length (tail ++ rest) = tail.length)
    (hdecode : decodeUtf8 (a :: tail) = some [c]) :
    decodeUtf8Lossy (a :: (tail ++ rest)) = c :: decodeUtf8Lossy rest := by
  rw [decodeUtf8Lossy, if_neg (by omega), hlead]
  dsimp only
  rw [hrun, if_neg (Nat.lt_irrefl _), List.take_left, hdecode, List.drop_left]
  rfl

theorem decodeUtf8Lossy_two {c : Char} {a b : UInt8} (rest : List UInt8)
    (hc : 0x80 ≤ c.toNat) (hc' : c.toNat ≤ 0x7FF) (ha : a.toNat = c.toNat / 64 + 192)
    (hb : b.toNat = c.toNat % 64 + 128) :
    decodeUtf8Lossy (a :: ([b] ++ rest)) = c :: decodeUtf8Lossy rest := by
  have hlead : utf8Lead? a.toNat = some (1, 0x80, 0xBF) := by
    unfold utf8Lead?
    rw [if_neg (by omega), if_pos (by omega)]
  have hdecode : decodeUtf8 [a, b] = some [c] := by
    unfold decodeUtf8 decodeUtf8By
    dsimp only
    rw [if_neg (by omega), if_neg (by omega), if_pos (by omega),
      continuation?_of_toNat hb (by omega)]
    simp only [Option.bind_eq_bind, Option.bind_some]
    rw [utf8Char?_toNat (c := c) (by omega) hc]
    rfl
  refine decodeUtf8Lossy_char (by omega) hlead ?_ hdecode
  rw [List.singleton_append, List.length_singleton,
    continuationRun_succ (by omega) (by omega), continuationRun_zero]

theorem decodeUtf8Lossy_three {c : Char} {a b b' : UInt8} (rest : List UInt8)
    (hc : 0x800 ≤ c.toNat) (hc' : c.toNat ≤ 0xFFFF) (ha : a.toNat = c.toNat / 4096 + 224)
    (hb : b.toNat = c.toNat / 64 % 64 + 128) (hb' : b'.toNat = c.toNat % 64 + 128) :
    decodeUtf8Lossy (a :: ([b, b'] ++ rest)) = c :: decodeUtf8Lossy rest := by
  have hvalid := toNat_cases c
  have hlead : utf8Lead? a.toNat = some (2, if a.toNat = 0xE0 then 0xA0 else 0x80,
      if a.toNat = 0xED then 0x9F else 0xBF) := by
    unfold utf8Lead?
    rw [if_neg (by omega), if_neg (by omega), if_pos (by omega)]
  have hdecode : decodeUtf8 [a, b, b'] = some [c] := by
    unfold decodeUtf8 decodeUtf8By
    dsimp only
    rw [if_neg (by omega), if_neg (by omega), if_neg (by omega), if_pos (by omega),
      continuation?_of_toNat hb (by omega), continuation?_of_toNat hb' (by omega)]
    simp only [Option.bind_eq_bind, Option.bind_some]
    rw [utf8Char?_toNat (c := c) (by omega) hc]
    rfl
  refine decodeUtf8Lossy_char (by omega) hlead ?_ hdecode
  have hlow : (if a.toNat = 0xE0 then 0xA0 else 0x80) ≤ b.toNat := by split <;> omega
  have hhigh : b.toNat ≤ (if a.toNat = 0xED then 0x9F else 0xBF) := by split <;> omega
  show continuationRun _ _ 2 (b :: b' :: rest) = 2
  rw [continuationRun_succ hlow hhigh, continuationRun_succ (by omega) (by omega),
    continuationRun_zero]

theorem decodeUtf8Lossy_four {c : Char} {a b b' b'' : UInt8} (rest : List UInt8)
    (hc : 0x10000 ≤ c.toNat) (ha : a.toNat = c.toNat / 262144 + 240)
    (hb : b.toNat = c.toNat / 4096 % 64 + 128) (hb' : b'.toNat = c.toNat / 64 % 64 + 128)
    (hb'' : b''.toNat = c.toNat % 64 + 128) :
    decodeUtf8Lossy (a :: ([b, b', b''] ++ rest)) = c :: decodeUtf8Lossy rest := by
  have hvalid := toNat_cases c
  have hlead : utf8Lead? a.toNat = some (3, if a.toNat = 0xF0 then 0x90 else 0x80,
      if a.toNat = 0xF4 then 0x8F else 0xBF) := by
    unfold utf8Lead?
    rw [if_neg (by omega), if_neg (by omega), if_neg (by omega), if_pos (by omega)]
  have hdecode : decodeUtf8 [a, b, b', b''] = some [c] := by
    unfold decodeUtf8 decodeUtf8By
    dsimp only
    rw [if_neg (by omega), if_neg (by omega), if_neg (by omega), if_neg (by omega),
      if_pos (by omega), continuation?_of_toNat hb (by omega),
      continuation?_of_toNat hb' (by omega), continuation?_of_toNat hb'' (by omega)]
    simp only [Option.bind_eq_bind, Option.bind_some]
    rw [utf8Char?_toNat (c := c) (by omega) hc]
    rfl
  refine decodeUtf8Lossy_char (by omega) hlead ?_ hdecode
  have hlow : (if a.toNat = 0xF0 then 0x90 else 0x80) ≤ b.toNat := by split <;> omega
  have hhigh : b.toNat ≤ (if a.toNat = 0xF4 then 0x8F else 0xBF) := by split <;> omega
  show continuationRun _ _ 3 (b :: b' :: b'' :: rest) = 3
  rw [continuationRun_succ hlow hhigh, continuationRun_succ (by omega) (by omega),
    continuationRun_succ (by omega) (by omega), continuationRun_zero]

/-- A character is read back from its octets. -/
theorem decodeUtf8Lossy_encodeChar (c : Char) (rest : List UInt8) :
    decodeUtf8Lossy (String.utf8EncodeChar c ++ rest) = c :: decodeUtf8Lossy rest := by
  have hvalid := toNat_cases c
  have hoctet (n : Nat) (hn : n < 256) : (UInt8.ofNat n).toNat = n := by
    simpa using Nat.mod_eq_of_lt hn
  have hval : c.val.toNat = c.toNat := rfl
  unfold String.utf8EncodeChar
  simp only [hval]
  split
  · rw [List.singleton_append, decodeUtf8Lossy, hoctet _ (by omega), if_pos (by omega),
      Char.ofNat_toNat]
  · split
    · refine decodeUtf8Lossy_two rest (by omega) (by omega) ?_ ?_
      all_goals exact (hoctet _ (by omega)).trans (by omega)
    · split
      · refine decodeUtf8Lossy_three rest (by omega) (by omega) ?_ ?_ ?_
        all_goals exact (hoctet _ (by omega)).trans (by omega)
      · refine decodeUtf8Lossy_four rest (by omega) ?_ ?_ ?_ ?_
        all_goals exact (hoctet _ (by omega)).trans (by omega)

/-- A text is read back from its octets. -/
theorem decodeUtf8Lossy_encodeUtf8 (cs : List Char) : decodeUtf8Lossy (encodeUtf8 cs) = cs := by
  induction cs with
  | nil => rw [encodeUtf8, List.flatMap_nil, decodeUtf8Lossy]
  | cons c cs ih =>
    rw [encodeUtf8, List.flatMap_cons, decodeUtf8Lossy_encodeChar]
    exact congrArg (c :: ·) ih

/-! ### Percent signs -/

theorem hexValue?_upperHex : ∀ n < 16, hexValue? (upperHex n) = some n := by decide

/-- What holds of percent signs and of hexadecimal digits holds of encoded octets. -/
theorem forall_percentOctet {P : Char → Prop} (hpercent : P '%')
    (hhex : ∀ n < 16, P (upperHex n)) (octets : List UInt8) :
    ∀ c ∈ octets.flatMap percentOctet, P c := by
  intro c hc
  obtain ⟨b, -, hc⟩ := List.mem_flatMap.mp hc
  have hb : b.toNat < 256 := b.toNat_lt
  simp only [percentOctet, List.mem_cons, List.not_mem_nil, or_false] at hc
  rcases hc with rfl | rfl | rfl
  · exact hpercent
  · exact hhex _ (by omega)
  · exact hhex _ (by omega)

/-- What holds of all kept characters, of percent signs and of hexadecimal digits holds of an
encoded text. -/
theorem forall_percentEncode {keeps : Char → Bool} {cs : List Char} {P : Char → Prop}
    (hkeeps : ∀ c ∈ cs, keeps c = true → P c) (hpercent : P '%') (hhex : ∀ n < 16, P (upperHex n)) :
    ∀ c ∈ percentEncode keeps cs, P c := by
  intro c hc
  obtain ⟨d, hd, hc⟩ := List.mem_flatMap.mp hc
  unfold percentChar at hc
  split at hc
  · rename_i hkept
    exact List.mem_singleton.mp hc ▸ hkeeps d hd hkept
  · exact forall_percentOctet hpercent hhex _ c hc

/-- A text of kept characters stands for itself. -/
theorem percentEncode_of_keeps {keeps : Char → Bool} {cs : List Char}
    (h : ∀ c ∈ cs, keeps c = true) : percentEncode keeps cs = cs := by
  induction cs with
  | nil => rfl
  | cons c cs ih =>
    have hc : keeps c = true := h c List.mem_cons_self
    have hcs : percentEncode keeps cs = cs := ih fun d hd ↦ h d (List.mem_cons_of_mem c hd)
    rw [percentEncode, List.flatMap_cons, percentChar, if_pos hc]
    exact congrArg (c :: ·) hcs

/-- A character other than a percent sign stands for its octets. -/
theorem percentOctets_cons {c : Char} (hc : c ≠ '%') (rest : List Char) :
    percentOctets (c :: rest) = String.utf8EncodeChar c ++ percentOctets rest := by
  rw [percentOctets]
  rintro a b rest' rfl
  exact absurd rfl hc

/-- An encoded octet is read back. -/
theorem percentOctets_percentOctet (b : UInt8) (rest : List Char) :
    percentOctets (percentOctet b ++ rest) = b :: percentOctets rest := by
  have hb : b.toNat < 256 := b.toNat_lt
  have hoctet : hexOctet? (upperHex (b.toNat / 16)) (upperHex (b.toNat % 16)) = some b := by
    unfold hexOctet?
    rw [hexValue?_upperHex _ (by omega), hexValue?_upperHex _ (by omega)]
    have hsum : b.toNat / 16 * 16 + b.toNat % 16 = b.toNat := by omega
    show some (UInt8.ofNat (b.toNat / 16 * 16 + b.toNat % 16)) = some b
    rw [hsum, UInt8.ofNat_toNat]
  show percentOctets ('%' :: upperHex (b.toNat / 16) :: upperHex (b.toNat % 16) :: rest) = _
  rw [percentOctets, hoctet]

theorem percentOctets_flatMap (octets : List UInt8) (rest : List Char) :
    percentOctets (octets.flatMap percentOctet ++ rest) = octets ++ percentOctets rest := by
  induction octets with
  | nil => rfl
  | cons b octets ih =>
    rw [List.flatMap_cons, List.append_assoc, percentOctets_percentOctet, ih, List.cons_append]

/-- An encoded text has the octets of the text if its percent signs are encoded. -/
theorem percentOctets_percentEncode {keeps : Char → Bool} (hpercent : keeps '%' = false)
    (cs : List Char) : percentOctets (percentEncode keeps cs) = encodeUtf8 cs := by
  induction cs with
  | nil => rfl
  | cons c cs ih =>
    rw [percentEncode, List.flatMap_cons, encodeUtf8, List.flatMap_cons, percentChar]
    split
    · rename_i hkept
      have hne : c ≠ '%' := by
        rintro rfl
        rw [hpercent] at hkept
        cases hkept
      rw [List.singleton_append, percentOctets_cons hne]
      exact congrArg (String.utf8EncodeChar c ++ ·) ih
    · rw [percentOctets_flatMap]
      exact congrArg (String.utf8EncodeChar c ++ ·) ih

/-- A text is read back from its encoded form if that form encodes percent signs. -/
theorem percentDecode_percentEncode {keeps : Char → Bool} (hpercent : keeps '%' = false)
    (cs : List Char) : percentDecode (percentEncode keeps cs) = cs := by
  rw [percentDecode, percentOctets_percentEncode hpercent, decodeUtf8Lossy_encodeUtf8]

/-! ### ASCII -/

/-- A property of all ASCII characters is checked number by number. -/
theorem forall_ascii {P : Char → Prop} (hall : ∀ n < 128, P (Char.ofNat n)) {c : Char}
    (hc : c.toNat < 128) : P c := by
  have h := hall c.toNat hc
  rwa [Char.ofNat_toNat] at h

theorem lt_of_isAsciiAlnum {c : Char} (h : isAsciiAlnum c = true) : c.toNat < 128 := by
  have hle (d : Char) (hd : d.toNat < 128) (hcd : c ≤ d) : c.toNat < 128 :=
    Nat.lt_of_le_of_lt (UInt32.le_iff_toNat_le.mp hcd) hd
  simp only [isAsciiAlnum, Bool.or_eq_true, Bool.and_eq_true, decide_eq_true_eq] at h
  rcases h with (⟨-, hc⟩ | ⟨-, hc⟩) | ⟨-, hc⟩
  · exact hle '9' (by decide) hc
  · exact hle 'z' (by decide) hc
  · exact hle 'Z' (by decide) hc

theorem lt_of_isUnreserved {c : Char} (h : isUnreserved c = true) : c.toNat < 128 := by
  simp only [isUnreserved, Bool.or_eq_true, beq_iff_eq] at h
  rcases h with (((halnum | rfl) | rfl) | rfl) | rfl
  · exact lt_of_isAsciiAlnum halnum
  all_goals decide

/-- The lower-case form of a text of ASCII characters is taken one by one. -/
theorem lowerChars_ascii {cs : List Char} (h : ∀ c ∈ cs, c.toNat < 128) :
    lowerChars cs = cs.map lowerChar := by
  have key : ∀ (before cs : List Char), (∀ c ∈ cs, c.toNat < 128) →
      lowerFrom before cs = cs.map lowerChar := by
    intro before cs
    induction cs generalizing before with
    | nil => exact fun _ ↦ rfl
    | cons c cs ih =>
      intro h
      have hc : c.toNat < 128 := h c List.mem_cons_self
      have hsigma : c ≠ 'Σ' := by
        rintro rfl
        revert hc
        decide
      have hdotted : c ≠ 'İ' := by
        rintro rfl
        revert hc
        decide
      rw [lowerFrom, if_neg hsigma, if_neg hdotted,
        ih (c :: before) fun d hd ↦ h d (List.mem_cons_of_mem c hd)]
      rfl
  exact key [] cs h

end Admission.Text
