import Admission.Proofs.Outcome
import Admission.Proofs.Url.Form

/-!
# Addresses in normal form

`Normal` says of an address that its text can be cut into its parts again: in front of the query
there is no question mark and no number sign, the query has no number sign, and query and fragment
consist of characters that stand for themselves there. Whatever is read or put together is in normal
form (`normal_of_parse`, `normal_of_assemble`).
-/

set_option autoImplicit false
set_option relaxedAutoImplicit false

namespace Admission.Url

open Text

/-- A character at which neither the query nor the fragment begins. -/
def isInner (c : Char) : Bool :=
  c != '?' && c != '#'

/-- The text of an address up to its query. -/
def front (u : Url) : List Char :=
  (if u.scheme.isEmpty then [] else u.scheme ++ [':']) ++
    (if u.authority.isEmpty then [] else '/' :: '/' :: u.authority) ++ u.path

theorem chars_eq (u : Url) : u.chars = u.front ++ marked '?' u.query ++ marked '#' u.fragment := rfl

/-- An address whose parts can be found again in its text. -/
structure Normal (u : Url) : Prop where
  scheme : ∀ c ∈ u.scheme, isInner c = true
  userinfo : ∀ c ∈ u.userinfo, isInner c = true
  host : ∀ c ∈ u.host, isInner c = true
  path : ∀ c ∈ u.path, isInner c = true
  query : ∀ q, u.query = some q → ∀ c ∈ q, keepsInQuery c = true
  fragment : ∀ f, u.fragment = some f → ∀ c ∈ f, keepsInFragment c = true

/-! ### Texts without marks -/

theorem isInner_of_isSchemeChar {c : Char} (h : isSchemeChar c = true) : isInner c = true := by
  unfold isInner
  rw [Bool.and_eq_true, bne_iff_ne, bne_iff_ne]
  constructor
  · rintro rfl
    cases h
  · rintro rfl
    cases h

theorem isInner_upperHex : ∀ n < 16, isInner (upperHex n) = true := by decide

/-- The text of a port has digits, and a sign at most. -/
theorem isInner_of_mem_port {port : Int} {c : Char} (h : c ∈ (toString port).toList) :
    isInner c = true := by
  have hdigit (n : Nat) (hc : c ∈ n.repr.toList) : isInner c = true := by
    have hisDigit : c.isDigit = true := by
      rw [Nat.toList_repr] at hc
      exact Nat.isDigit_of_mem_toDigits (by decide) (by decide) hc
    unfold isInner
    rw [Bool.and_eq_true, bne_iff_ne, bne_iff_ne]
    constructor
    · rintro rfl
      cases hisDigit
    · rintro rfl
      cases hisDigit
  cases port with
  | ofNat n => exact hdigit n h
  | negSucc n =>
    have hsigned : c ∈ ['-'] ++ (n + 1).repr.toList := by simpa [toString, Int.repr] using h
    rcases List.mem_append.mp hsigned with h | h
    · rw [List.mem_singleton.mp h]
      rfl
    · exact hdigit (n + 1) h

namespace Normal

variable {u : Url}

theorem authority (h : Normal u) : ∀ c ∈ u.authority, isInner c = true := by
  intro c hc
  unfold Url.authority at hc
  rcases List.mem_append.mp hc with hc | hc
  · rcases List.mem_append.mp hc with hc | hc
    · split at hc
      · cases hc
      · rcases List.mem_append.mp hc with hc | hc
        · exact h.userinfo c hc
        · rw [List.mem_singleton.mp hc]
          rfl
    · split at hc
      · rcases List.mem_cons.mp hc with rfl | hc
        · rfl
        · rcases List.mem_append.mp hc with hc | hc
          · exact h.host c hc
          · rw [List.mem_singleton.mp hc]
            rfl
      · exact h.host c hc
  · split at hc
    · rcases List.mem_cons.mp hc with rfl | hc
      · rfl
      · exact isInner_of_mem_port hc
    · cases hc

theorem front (h : Normal u) : ∀ c ∈ u.front, isInner c = true := by
  intro c hc
  unfold Url.front at hc
  rcases List.mem_append.mp hc with hc | hc
  · rcases List.mem_append.mp hc with hc | hc
    · split at hc
      · cases hc
      · rcases List.mem_append.mp hc with hc | hc
        · exact h.scheme c hc
        · rw [List.mem_singleton.mp hc]
          rfl
    · split at hc
      · cases hc
      · simp only [List.mem_cons] at hc
        rcases hc with rfl | rfl | hc
        · rfl
        · rfl
        · exact h.authority c hc
  · exact h.path c hc

end Normal

/-! ### Normal forms of parts -/

theorem keepsInQuery_upperHex : ∀ n < 16, keepsInQuery (upperHex n) = true := by decide

theorem keepsInFragment_upperHex : ∀ n < 16, keepsInFragment (upperHex n) = true := by decide

/-- What is encoded by a class without the marks has none of them. -/
theorem isInner_of_mem_percentEncode {keeps : Char → Bool} (hquestion : keeps '?' = false)
    (hnumber : keeps '#' = false) {cs : List Char} :
    ∀ c ∈ percentEncode keeps cs, isInner c = true := by
  refine forall_percentEncode (fun c _ hc ↦ ?_) rfl isInner_upperHex
  unfold isInner
  rw [Bool.and_eq_true, bne_iff_ne, bne_iff_ne]
  constructor
  · rintro rfl
    rw [hquestion] at hc
    cases hc
  · rintro rfl
    rw [hnumber] at hc
    cases hc

/-- A scheme in lower case has the form of a scheme. -/
theorem isSchemeChar_of_mem_lowerChars {cs : List Char} (h : ∀ c ∈ cs, isSchemeChar c = true) :
    ∀ c ∈ lowerChars cs, isSchemeChar c = true := by
  have hlt : ∀ c ∈ cs, c.toNat < 128 := by
    intro c hc
    have hscheme := h c hc
    simp only [isSchemeChar, Bool.or_eq_true, beq_iff_eq] at hscheme
    rcases hscheme with ((halnum | rfl) | rfl) | rfl
    · exact lt_of_isAsciiAlnum halnum
    · decide
    · decide
    · decide
  intro c hc
  rw [lowerChars_ascii hlt] at hc
  obtain ⟨d, hd, rfl⟩ := List.mem_map.mp hc
  exact forall_ascii (P := fun c ↦ isSchemeChar c = true → isSchemeChar (lowerChar c) = true)
    (by decide +kernel) (hlt d hd) (h d hd)

/-- The normal form of a host without marks has none. -/
theorem isInner_of_normalHost {host out : List Char} (hhost : ∀ c ∈ host, isInner c = true)
    (h : normalHost host = .ok out) : ∀ c ∈ out, isInner c = true := by
  unfold normalHost at h
  split at h
  · cases h
    exact nofun
  · split at h
    · split at h
      · cases h
        exact hhost
      · cases h
    · split at h
      · dsimp only at h
        split at h
        · cases h
          exact fun c hc ↦ hhost c (List.mem_of_mem_drop ((List.dropLast_sublist _).subset hc))
        · cases h
      · split at h
        · cases h
          exact isInner_of_mem_percentEncode rfl rfl
        · cases h

/-- The host is a part of the authority. -/
theorem mem_of_mem_cutHostPort {authority : List Char} {c : Char}
    (h : c ∈ (cutHostPort authority).2.1) : c ∈ authority := by
  have hbehind {d : Char} (hd : d ∈ (authority.reverse.takeWhile (· != '@')).reverse) :
      d ∈ authority := by
    have hd' := (List.takeWhile_sublist _).subset (List.mem_reverse.mp hd)
    exact List.mem_reverse.mp hd'
  unfold cutHostPort at h
  dsimp only at h
  split at h
  · exact hbehind (List.mem_of_mem_take h)
  · rw [List.span_eq_takeWhile_dropWhile] at h
    exact hbehind ((List.takeWhile_sublist _).subset h)

/-- What is put together from parts has the normal forms of these. -/
theorem ofParts_ok {p : Parts} {u : Url} (h : ofParts p = .ok u) :
    ∃ host path, normalHost (p.host.getD (cutHostPort p.authority).2.1) = .ok host ∧
      u.scheme = lowerChars p.scheme ∧
      u.userinfo = percentEncode keepsInUserinfo (cutHostPort p.authority).1 ∧
      u.host = host ∧ u.path = percentEncode keepsInPath path ∧
      u.query = p.query.map (percentEncode keepsInQuery) ∧
      u.fragment = p.fragment.map (percentEncode keepsInFragment) := by
  unfold ofParts at h
  rcases hcut : cutHostPort p.authority with ⟨userinfo, host, port⟩
  rw [hcut] at h
  obtain ⟨host', hhost, h⟩ := bind_eq_ok h
  obtain ⟨port', hport, h⟩ := bind_eq_ok h
  obtain ⟨-, -, h⟩ := bind_eq_ok h
  cases h
  exact ⟨host', _, hhost, rfl, rfl, rfl, rfl, rfl, rfl⟩

/-- What parts are put together to is in normal form if there are no marks where they do not belong.
-/
theorem normal_of_ofParts {p : Parts} {u : Url} (hscheme : ∀ c ∈ p.scheme, isSchemeChar c = true)
    (hauthority : ∀ c ∈ p.authority, isInner c = true)
    (hhost : ∀ host, p.host = some host → ∀ c ∈ host, isInner c = true)
    (h : ofParts p = .ok u) : Normal u := by
  obtain ⟨host, path, hnormal, hscheme', huserinfo', hhost', hpath', hquery', hfragment'⟩ :=
    ofParts_ok h
  have hgiven : ∀ c ∈ p.host.getD (cutHostPort p.authority).2.1, isInner c = true := by
    intro c hc
    rcases hp : p.host with _ | given
    · rw [hp] at hc
      exact hauthority c (mem_of_mem_cutHostPort hc)
    · rw [hp] at hc
      exact hhost given hp c hc
  constructor
  · rw [hscheme']
    exact fun c hc ↦ isInner_of_isSchemeChar (isSchemeChar_of_mem_lowerChars hscheme c hc)
  · rw [huserinfo']
    exact isInner_of_mem_percentEncode rfl rfl
  · rw [hhost']
    exact isInner_of_normalHost hgiven hnormal
  · rw [hpath']
    exact isInner_of_mem_percentEncode rfl rfl
  · intro q hq
    rw [hquery'] at hq
    obtain ⟨q', -, rfl⟩ := Option.map_eq_some_iff.mp hq
    exact forall_percentEncode (fun _ _ hc ↦ hc) rfl keepsInQuery_upperHex
  · intro f hf
    rw [hfragment'] at hf
    obtain ⟨f', -, rfl⟩ := Option.map_eq_some_iff.mp hf
    exact forall_percentEncode (fun _ _ hc ↦ hc) rfl keepsInFragment_upperHex

/-! ### What is read and what is put together -/

theorem isSchemeChar_of_mem_cutScheme {cs : List Char} {c : Char} (h : c ∈ (cutScheme cs).1) :
    isSchemeChar c = true := by
  unfold cutScheme at h
  rw [List.span_eq_takeWhile_dropWhile] at h
  dsimp only at h
  split at h
  · split at h
    · exact List.mem_takeWhile_imp h
    · cases h
  · cases h

theorem isInner_of_mem_cutAuthority {cs : List Char} {c : Char} (h : c ∈ (cutAuthority cs).1) :
    isInner c = true := by
  unfold cutAuthority at h
  split at h
  · rw [List.span_eq_takeWhile_dropWhile] at h
    have hc := List.mem_takeWhile_imp h
    simp only [List.contains_eq_mem, List.mem_cons, List.not_mem_nil, or_false, Bool.not_eq_true',
      decide_eq_false_iff_not, not_or] at hc
    simp [isInner, hc.2.1, hc.2.2]
  · cases h

/-- An address that was read is in normal form. -/
theorem normal_of_parse {cs : List Char} {u : Url} (h : parse cs = .ok u) : Normal u := by
  unfold parse at h
  split at h
  · cases h
  · split at h
    · cases h
    · refine normal_of_ofParts (fun c hc ↦ isSchemeChar_of_mem_cutScheme hc)
        (fun c hc ↦ isInner_of_mem_cutAuthority hc) (fun host hhost ↦ ?_) h
      have hnone : (cut cs).host = none := rfl
      rw [hnone] at hhost
      cases hhost

/-- A part that passes its check has its form. -/
theorem hasForm_of_checkPart {part : Part} {cs : List Char} (h : checkPart part cs = .ok ()) :
    hasForm part cs = true := by
  unfold checkPart at h
  split at h
  · cases h
  · split at h
    · cases h
    · split at h
      · assumption
      · cases h

/-- What is put together from checked parts without a defect passed its checks. -/
theorem assemble_ok {p : Parts} {u : Url} (h : assemble p = .ok u) :
    checkPart .scheme p.scheme = .ok () ∧ checkPart .authority p.authority = .ok () ∧
      ofParts p = .ok u := by
  obtain ⟨_, hscheme, h⟩ := bind_eq_ok h
  obtain ⟨_, hauthority, h⟩ := bind_eq_ok h
  obtain ⟨_, -, h⟩ := bind_eq_ok h
  obtain ⟨_, -, h⟩ := bind_eq_ok h
  obtain ⟨_, -, h⟩ := bind_eq_ok h
  obtain ⟨_, -, h⟩ := bind_eq_ok h
  exact ⟨hscheme, hauthority, h⟩

/-- An address that was put together from checked parts is in normal form. -/
theorem normal_of_assemble {p : Parts} {u : Url}
    (hhost : ∀ host, p.host = some host → ∀ c ∈ host, isInner c = true)
    (h : assemble p = .ok u) : Normal u := by
  obtain ⟨hscheme, hauthority, h⟩ := assemble_ok h
  refine normal_of_ofParts (fun c hc ↦ ?_) (fun c hc ↦ ?_) hhost h
  · have hform := hasForm_of_checkPart hscheme
    simp only [hasForm, Bool.and_eq_true, List.all_eq_true] at hform
    exact hform.2 c hc
  · have hform := hasForm_of_checkPart hauthority
    simp only [hasForm, Bool.not_eq_true', List.any_eq_false] at hform
    have hc' := hform c hc
    simp only [List.contains_eq_mem, List.mem_cons, List.not_mem_nil, or_false,
      decide_eq_true_eq, not_or] at hc'
    simp [isInner, hc'.2.1, hc'.2.2]

theorem normal_of_withQuery {u v : Url} {query : Option (List Char)}
    (h : u.withQuery query = .ok v) : Normal v :=
  normal_of_assemble (fun _ hhost ↦ by cases hhost) h

theorem normal_of_withFragment {u v : Url} {fragment : Option (List Char)}
    (h : u.withFragment fragment = .ok v) : Normal v :=
  normal_of_assemble (fun _ hhost ↦ by cases hhost) h

theorem normal_of_withHost {u v : Url} {host : List Char} (hhost : ∀ c ∈ host, isInner c = true)
    (h : u.withHost host = .ok v) : Normal v := by
  refine normal_of_assemble (fun given hgiven c hc ↦ ?_) h
  cases hgiven
  split at hc
  · rcases List.mem_cons.mp hc with rfl | hc
    · rfl
    · rcases List.mem_append.mp hc with hc | hc
      · exact hhost c hc
      · rw [List.mem_singleton.mp hc]
        rfl
  · exact hhost c hc

end Admission.Url
