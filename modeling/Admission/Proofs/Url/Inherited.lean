import Admission.Proofs.Url.Normal
import Admission.Url.Join

/-!
# Queries that addresses inherit

A reference that is resolved against a base may keep the query of the base. `Carries` says that a
text depends on a query in no other way: either not at all, or it has the query as its own.
Resolving does that (`carries_resolve`), and reading such a text makes an address of which only the
query depends on it (`parse_behind`), apart from the limit on its length.
-/

set_option autoImplicit false
set_option relaxedAutoImplicit false

namespace Admission

/-- A result that is an error of some kind. -/
def FailsBy {ε α : Type} (kind : ε → Bool) (result : Except ε α) : Prop :=
  ∃ e, result = .error e ∧ kind e = true

theorem FailsBy.bind {ε α β : Type} {kind : ε → Bool} {x : Except ε α} (h : FailsBy kind x)
    (f : α → Except ε β) : FailsBy kind (x >>= f) := by
  obtain ⟨e, rfl, he⟩ := h
  exact ⟨e, rfl, he⟩

namespace Url

open Text

/-! ### Characters of queries -/

theorem keepsInQuery_ne_number {c : Char} (h : keepsInQuery c = true) : (c != '#') = true := by
  rw [bne_iff_ne]
  rintro rfl
  cases h

theorem isUnprintable_of_isPlain {c : Char} (h : isPlain c = true) : isUnprintable c = false := by
  simp only [isPlain, Bool.and_eq_true, decide_eq_true_eq] at h
  simp only [isUnprintable, Bool.or_eq_false_iff, decide_eq_false_iff_not, beq_eq_false_iff_ne]
  omega

theorem isUnprintable_of_keepsInQuery {c : Char} (h : keepsInQuery c = true) :
    isUnprintable c = false := by
  simp only [keepsInQuery, Bool.and_eq_true] at h
  exact isUnprintable_of_isPlain h.1

theorem isUnprintable_of_keepsInFragment {c : Char} (h : keepsInFragment c = true) :
    isUnprintable c = false := by
  simp only [keepsInFragment, Bool.and_eq_true] at h
  exact isUnprintable_of_isPlain h.1

/-- A query that stands for itself and is not empty. -/
def IsPlainQuery (q : List Char) : Prop :=
  q ≠ [] ∧ ∀ c ∈ q, keepsInQuery c = true

/-- Nothing, or a number sign and a fragment that stands for itself. -/
def IsTail (tail : List Char) : Prop :=
  tail = [] ∨ ∃ f, tail = '#' :: f ∧ ∀ c ∈ f, keepsInFragment c = true

theorem Normal.isTail {u : Url} (h : Normal u) : IsTail (marked '#' u.fragment) := by
  rcases hf : u.fragment with _ | f
  · exact .inl rfl
  · exact .inr ⟨f, rfl, h.fragment f hf⟩

/-! ### Cutting in front of a query -/

/-- The scheme is cut off in front of the query. -/
theorem cutScheme_behind {A : List Char} (hA : ∀ c ∈ A, isInner c = true) :
    ∃ scheme A', (∀ c ∈ A', isInner c = true) ∧
      ∀ X, cutScheme (A ++ '?' :: X) = (scheme, A' ++ '?' :: X) := by
  rcases forall_or_exists_first isSchemeChar A with hall | ⟨name, d, rest, rfl, hname, hd⟩
  · refine ⟨[], A, hA, fun X ↦ ?_⟩
    unfold cutScheme
    rw [span_append_cons hall (by decide)]
    rfl
  · have hspan (X : List Char) : (name ++ d :: rest ++ '?' :: X).span isSchemeChar =
        (name, d :: (rest ++ '?' :: X)) := by
      rw [List.append_assoc, List.cons_append]
      exact span_append_cons hname hd
    by_cases hcolon : d = ':' ∧ ((name.head?.map isSchemeStart).getD true) = true
    · obtain ⟨rfl, hstart⟩ := hcolon
      refine ⟨name, rest, fun e he ↦ hA e ?_, fun X ↦ ?_⟩
      · exact List.mem_append_right _ (List.mem_cons_of_mem _ he)
      · unfold cutScheme
        rw [hspan]
        exact if_pos hstart
    · refine ⟨[], name ++ d :: rest, hA, fun X ↦ ?_⟩
      unfold cutScheme
      rw [hspan]
      dsimp only
      split
      · rename_i heq
        cases heq
        exact if_neg fun h ↦ hcolon ⟨rfl, h⟩
      · rfl

theorem isInner_iff {c : Char} : isInner c = true ↔ c ≠ '?' ∧ c ≠ '#' := by
  simp [isInner]

/-- The authority is cut off in front of the query. -/
theorem cutAuthority_behind {A : List Char} (hA : ∀ c ∈ A, isInner c = true) :
    ∃ authority A', (∀ c ∈ authority, isInner c = true) ∧ (∀ c ∈ A', isInner c = true) ∧
      ∀ X, cutAuthority (A ++ '?' :: X) = (authority, A' ++ '?' :: X) := by
  by_cases hslashes : ∃ rest, A = '/' :: '/' :: rest
  · obtain ⟨rest, rfl⟩ := hslashes
    have hrest : ∀ c ∈ rest, isInner c = true := fun c hc ↦
      hA c (List.mem_cons_of_mem _ (List.mem_cons_of_mem _ hc))
    rcases forall_or_exists_first (fun c ↦ !(['/', '?', '#'].contains c)) rest with
      hall | ⟨authority, d, rest', rfl, hauthority, hd⟩
    · exact ⟨rest, [], hrest, nofun, fun X ↦ span_append_cons hall (by decide)⟩
    · refine ⟨authority, d :: rest', fun c hc ↦ hrest c (List.mem_append_left _ hc),
        fun c hc ↦ hrest c (List.mem_append_right _ hc), fun X ↦ ?_⟩
      show (authority ++ d :: rest' ++ '?' :: X).span _ = _
      rw [List.append_assoc, List.cons_append]
      exact span_append_cons hauthority hd
  · refine ⟨[], A, nofun, hA, fun X ↦ ?_⟩
    unfold cutAuthority
    split
    · rename_i rest heq
      rcases A with _ | ⟨a, _ | ⟨b, A⟩⟩
      · cases heq
      · cases heq
      · cases heq
        exact absurd ⟨A, rfl⟩ hslashes
    · rfl

/-- A text without number signs is cut where its tail begins. -/
theorem span_tail {text tail : List Char} (h : ∀ c ∈ text, (c != '#') = true)
    (htail : IsTail tail) : (text ++ tail).span (· != '#') = (text, tail) := by
  rcases htail with rfl | ⟨f, rfl, -⟩
  · rw [List.append_nil, span_eq_self h]
  · exact span_append_cons h rfl

theorem ne_number_behind {front q : List Char} (hfront : ∀ c ∈ front, isInner c = true)
    (hq : ∀ c ∈ q, keepsInQuery c = true) : ∀ c ∈ front ++ '?' :: q, (c != '#') = true := by
  intro c hc
  rcases List.mem_append.mp hc with hc | hc
  · rw [bne_iff_ne]
    exact (isInner_iff.mp (hfront c hc)).2
  · rcases List.mem_cons.mp hc with rfl | hc
    · rfl
    · exact keepsInQuery_ne_number (hq c hc)

/-! ### Reading texts with a query -/

/-- The parts of a text with a query: only the query depends on it. -/
theorem cut_behind {A tail : List Char} (hA : ∀ c ∈ A, isInner c = true) (htail : IsTail tail) :
    ∃ p : Parts, p.host = none ∧ (∀ c ∈ p.scheme, isSchemeChar c = true) ∧
      (∀ c ∈ p.authority, isInner c = true) ∧
      ∀ q, (∀ c ∈ q, keepsInQuery c = true) →
        cut (A ++ '?' :: (q ++ tail)) = { p with query := some q } := by
  obtain ⟨scheme, A₁, hA₁, hscheme⟩ := cutScheme_behind hA
  obtain ⟨authority, A₂, hinner, hA₂, hauthority⟩ := cutAuthority_behind hA₁
  refine ⟨{ scheme, authority, path := A₂, query := none, fragment := (cutMarked '#' [] tail).1 },
    rfl, fun c hc ↦ ?_, hinner, fun q hq ↦ ?_⟩
  · have h := hscheme []
    exact @isSchemeChar_of_mem_cutScheme (A ++ ['?']) c (by rw [h]; exact hc)
  · have hpath : (A₂ ++ '?' :: (q ++ tail)).span (fun c ↦ !(['?', '#'].contains c)) =
        (A₂, '?' :: (q ++ tail)) := by
      refine span_append_cons (fun c hc ↦ ?_) rfl
      have h := isInner_iff.mp (hA₂ c hc)
      simp [h.1, h.2]
    have hquery : cutMarked '?' ['#'] ('?' :: (q ++ tail)) = (some q, tail) := by
      have hstop : (fun c ↦ !(['#'].contains c)) = fun c : Char ↦ c != '#' := by
        funext c
        rw [Bool.eq_iff_iff]
        simp
      simp only [cutMarked, if_true, hstop,
        span_tail (fun c hc ↦ keepsInQuery_ne_number (hq c hc)) htail]
    simp only [cut, hscheme, hauthority, hpath, hquery]

/-- What is put together depends on the query in its query only. -/
theorem ofParts_query (p : Parts) {q : List Char} (hq : ∀ c ∈ q, keepsInQuery c = true) :
    ofParts { p with query := some q } =
      (ofParts { p with query := none }).map fun u ↦ { u with query := some q } := by
  unfold ofParts
  rcases cutHostPort p.authority with ⟨userinfo, host, port⟩
  dsimp only
  rcases normalHost (p.host.getD host) with d | host
  · rfl
  · rcases normalPort p.scheme port with d | port
    · rfl
    · simp only [bind, Except.bind]
      rcases checkPath p.path _ _ with d | -
      · rfl
      · simp only [pure, Except.pure, Option.map_some, Option.map_none, Except.map,
          percentEncode_of_keeps hq]

/-- An address with a query that is passed on to it, or as it is. -/
def carry (inherits : Bool) (q : List Char) (u : Url) : Url :=
  if inherits then { u with query := some q } else u

/-- The text of an address, or one of its parts, is too long. -/
def Defect.isTooLong : Defect → Bool
  | tooLong => true
  | partTooLong _ => true
  | _ => false

/-- What is made with a query: it does not depend on it, or in its own query only, unless it is
refused for its length. -/
structure Inherits (result : List Char → Except Defect Url) (fixed : Except Defect Url)
    (inherits : Bool) : Prop where
  normal : ∀ u, fixed = .ok u → Normal u
  eq : ∀ q, IsPlainQuery q →
    FailsBy Defect.isTooLong (result q) ∨ result q = fixed.map (carry inherits q)

/-- A text that is too long is refused. In one that is not, only the query depends on the query. -/
theorem parse_behind {A tail : List Char} (hA : ∀ c ∈ A, isInner c = true) (htail : IsTail tail) :
    ∃ fixed, Inherits (fun q ↦ parse (A ++ '?' :: (q ++ tail))) fixed true := by
  obtain ⟨p, hhost, hscheme, hauthority, hcut⟩ := cut_behind hA htail
  have hrest (q : List Char) (hq : ∀ c ∈ q, keepsInQuery c = true) :
      ('?' :: (q ++ tail)).findIdx? isUnprintable = none := by
    rw [List.findIdx?_eq_none_iff]
    intro c hc
    rcases List.mem_cons.mp hc with rfl | hc
    · rfl
    · rcases List.mem_append.mp hc with hc | hc
      · exact isUnprintable_of_keepsInQuery (hq c hc)
      · rcases htail with rfl | ⟨f, rfl, hf⟩
        · cases hc
        · rcases List.mem_cons.mp hc with rfl | hc
          · rfl
          · exact isUnprintable_of_keepsInFragment (hf c hc)
  rcases hfind : A.findIdx? isUnprintable with _ | i
  · refine ⟨ofParts { p with query := none }, fun u hu ↦ ?_, fun q hq ↦ ?_⟩
    · refine @normal_of_ofParts { p with query := none } u hscheme hauthority (fun host h ↦ ?_) hu
      rw [show p.host = some host from h] at hhost
      cases hhost
    · unfold parse
      split
      · exact .inl ⟨_, rfl, rfl⟩
      · right
        rw [List.findIdx?_append, hfind, hrest q hq.2, hcut q hq.2]
        exact ofParts_query p hq.2
  · refine ⟨.error (.unprintable (A.getD i ' ') i), nofun, fun q hq ↦ ?_⟩
    unfold parse
    split
    · exact .inl ⟨_, rfl, rfl⟩
    · right
      have hi : i < A.length := (List.findIdx?_eq_some_iff_getElem.mp hfind).1
      rw [List.findIdx?_append, hfind]
      simp [Except.map, List.getElem?_append_left hi]

/-! ### Resolving against a base with a query -/

namespace Reference

theorem cutScheme_behind (fallback : List Char) {A : List Char} (hA : ∀ c ∈ A, isInner c = true) :
    ∃ scheme A', (∀ c ∈ A', isInner c = true) ∧
      ∀ X, cutScheme fallback (A ++ '?' :: X) = (scheme, A' ++ '?' :: X) := by
  rcases forall_or_exists_first (· != ':') A with hall | ⟨name, d, rest, rfl, hname, hd⟩
  · -- the text up to the first colon has the question mark, so it is no scheme
    refine ⟨fallback, A, hA, fun X ↦ ?_⟩
    have hquestion : ((A ++ '?' :: X).takeWhile (· != ':')).all isSchemeChar = false := by
      rw [List.takeWhile_append_of_pos hall, List.takeWhile_cons_of_pos (by decide)]
      simp [show isSchemeChar '?' = false from rfl]
    unfold cutScheme
    rw [List.span_eq_takeWhile_dropWhile]
    simp [hquestion]
  · have hd' : d = ':' := by simpa using hd
    subst hd'
    have hspan (X : List Char) : (name ++ ':' :: rest ++ '?' :: X).span (· != ':') =
        (name, ':' :: (rest ++ '?' :: X)) := by
      rw [List.append_assoc, List.cons_append]
      exact span_append_cons hname hd
    by_cases hform : ((name.head?.map isSchemeStart).getD false) = true ∧
        name.all isSchemeChar = true
    · refine ⟨lowerChars name, rest, fun e he ↦ hA e ?_, fun X ↦ ?_⟩
      · exact List.mem_append_right _ (List.mem_cons_of_mem _ he)
      · simp only [cutScheme, hspan, hform.1, hform.2]
        rfl
    · refine ⟨fallback, name ++ ':' :: rest, hA, fun X ↦ ?_⟩
      have hrefused : (!((name.head?.map isSchemeStart).getD false) || !name.all isSchemeChar) =
          true := by
        rw [← Bool.not_and, Bool.not_eq_true', Bool.eq_false_iff]
        simpa using hform
      simp only [cutScheme, hspan, List.isEmpty_cons, Bool.false_or, hrefused, if_true]

theorem mem_of_mem_cutBehind {mark c : Char} {cs : List Char}
    (h : c ∈ (cutBehind mark cs).1 ∨ c ∈ (cutBehind mark cs).2) : c ∈ cs := by
  unfold cutBehind at h
  rw [List.span_eq_takeWhile_dropWhile] at h
  rcases h with h | h
  · exact (List.takeWhile_sublist _).subset h
  · exact (List.dropWhile_sublist _).subset (List.mem_of_mem_drop h)

theorem mem_of_mem_cutParams {c : Char} {path : List Char}
    (h : c ∈ (cutParams path).1 ∨ c ∈ (cutParams path).2) : c ∈ path := by
  have hlast {d : Char} (hd : d ∈ (path.reverse.takeWhile (· != '/')).reverse) : d ∈ path := by
    have hd' := (List.takeWhile_sublist _).subset (List.mem_reverse.mp hd)
    exact List.mem_reverse.mp hd'
  unfold cutParams at h
  rcases h with h | h
  · rcases List.mem_append.mp h with h | h
    · exact List.mem_of_mem_take h
    · exact hlast (mem_of_mem_cutBehind (.inl h))
  · exact hlast (mem_of_mem_cutBehind (.inr h))

/-- The parts of a base with a query: only the query depends on it. -/
theorem ofChars_behind (fallback : List Char) {A tail : List Char}
    (hA : ∀ c ∈ A, isInner c = true) (htail : IsTail tail) :
    ∃ b : Reference, (∀ c ∈ b.authority, isInner c = true) ∧ (∀ c ∈ b.path, isInner c = true) ∧
      (∀ c ∈ b.params, isInner c = true) ∧
      ∀ q, (∀ c ∈ q, keepsInQuery c = true) →
        ofChars fallback (A ++ '?' :: (q ++ tail)) = { b with query := q } := by
  obtain ⟨scheme, A₁, hA₁, hscheme⟩ := cutScheme_behind fallback hA
  obtain ⟨authority, A₂, hinner, hA₂, hauthority⟩ := cutAuthority_behind hA₁
  let cutPath := if isOneOf parameterSchemes scheme then cutParams A₂ else (A₂, [])
  have hparams : (∀ c ∈ cutPath.1, c ∈ A₂) ∧ ∀ c ∈ cutPath.2, c ∈ A₂ := by
    simp only [cutPath]
    split
    · exact ⟨fun c hc ↦ mem_of_mem_cutParams (.inl hc), fun c hc ↦ mem_of_mem_cutParams (.inr hc)⟩
    · exact ⟨fun c hc ↦ hc, nofun⟩
  refine ⟨{ scheme, authority, path := cutPath.1, params := cutPath.2, query := []
            fragment := tail.drop 1 }, hinner, fun c hc ↦ hA₂ c (hparams.1 c hc),
    fun c hc ↦ hA₂ c (hparams.2 c hc), fun q hq ↦ ?_⟩
  have hfragment : cutBehind '#' (A₂ ++ '?' :: (q ++ tail)) = (A₂ ++ '?' :: q, tail.drop 1) := by
    unfold cutBehind
    rw [← List.cons_append, ← List.append_assoc, span_tail (ne_number_behind hA₂ hq) htail]
  have hquery : cutBehind '?' (A₂ ++ '?' :: q) = (A₂, q) := by
    unfold cutBehind
    rw [span_append_cons (fun c hc ↦ bne_iff_ne.mpr (isInner_iff.mp (hA₂ c hc)).1) rfl]
    rfl
  simp only [ofChars, hscheme, hauthority, hfragment, hquery]
  rfl

/-- What stands behind the first number sign of a part of a text stands behind its first one. -/
theorem mem_behind_of_suffix {part cs : List Char} (h : part <:+ cs) {c : Char}
    (hc : c ∈ (cutBehind '#' part).2) : c ∈ (cutBehind '#' cs).2 := by
  obtain ⟨before, rfl⟩ := h
  unfold cutBehind at hc ⊢
  rw [List.span_eq_takeWhile_dropWhile] at hc ⊢
  rcases forall_or_exists_first (· != '#') before with hall | ⟨name, d, rest, rfl, hname, hd⟩
  · rwa [List.dropWhile_append_of_pos hall]
  · rw [List.append_assoc, List.dropWhile_append_of_pos hname, List.cons_append,
      List.dropWhile_cons_of_neg (by simp [hd])]
    have hpart := (List.dropWhile_sublist _).subset (List.mem_of_mem_drop hc)
    exact List.mem_append_right rest hpart

theorem cutScheme_suffix (fallback cs : List Char) : (cutScheme fallback cs).2 <:+ cs := by
  unfold cutScheme
  rw [List.span_eq_takeWhile_dropWhile]
  dsimp only
  split
  · exact List.suffix_refl cs
  · exact (List.drop_suffix 1 _).trans (List.dropWhile_suffix _)

theorem cutAuthority_suffix (cs : List Char) : (cutAuthority cs).2 <:+ cs := by
  unfold cutAuthority
  split
  · rw [List.span_eq_takeWhile_dropWhile]
    exact (List.dropWhile_suffix _).trans ((List.suffix_cons _ _).trans (List.suffix_cons _ _))
  · exact List.suffix_refl _

/-- The fragment of an address in normal form is that of its text, or a part of it. -/
theorem keepsInFragment_of_mem_fragment {u : Url} (hu : Normal u) (fallback : List Char) :
    ∀ c ∈ (ofChars fallback u.chars).fragment, keepsInFragment c = true := by
  intro c hc
  have hsuffix := (cutAuthority_suffix (cutScheme fallback u.chars).2).trans
    (cutScheme_suffix fallback u.chars)
  have hfragment : (cutBehind '#' u.chars).2 = u.fragment.getD [] := by
    have hbefore : ∀ d ∈ u.front ++ marked '?' u.query, (d != '#') = true := by
      rcases hq : u.query with _ | q
      · rw [marked, List.append_nil]
        exact fun d hd ↦ bne_iff_ne.mpr (isInner_iff.mp (hu.front d hd)).2
      · exact ne_number_behind hu.front (hu.query q hq)
    unfold cutBehind
    rw [chars_eq, span_tail hbefore hu.isTail]
    rcases u.fragment with _ | f <;> rfl
  have hmem : c ∈ u.fragment.getD [] := hfragment ▸ mem_behind_of_suffix hsuffix hc
  rcases hf : u.fragment with _ | f
  · rw [hf] at hmem
    cases hmem
  · rw [hf] at hmem
    exact hu.fragment f hf c hmem

theorem isInner_of_isOneOf {scheme : List Char} (h : isOneOf relativeSchemes scheme = true) :
    ∀ c ∈ scheme, isInner c = true := by
  have hall : ∀ s ∈ relativeSchemes, ∀ c ∈ s.toList, isInner c = true := by
    simp [relativeSchemes, isInner]
  intro c hc
  exact hall (String.ofList scheme) (List.contains_iff_mem.mp h) c (by simpa using hc)

end Reference

/-- A text that is made with a query: it does not depend on it, or it has the query as its own. -/
inductive Carries (text : List Char → List Char) : Prop
  | not (fixed : List Char) (h : ∀ q, IsPlainQuery q → text q = fixed)
  | behind (A tail : List Char) (hA : ∀ c ∈ A, isInner c = true) (htail : IsTail tail)
    (h : ∀ q, IsPlainQuery q → text q = A ++ '?' :: (q ++ tail))

theorem Carries.congr {text text' : List Char → List Char} (h : Carries text)
    (heq : ∀ q, IsPlainQuery q → text' q = text q) : Carries text' := by
  cases h with
  | not fixed h => exact .not fixed fun q hq ↦ (heq q hq).trans (h q hq)
  | behind A tail hA htail h => exact .behind A tail hA htail fun q hq ↦ (heq q hq).trans (h q hq)

/-- The text of a reference that has the query of its base. -/
theorem carries_chars {r : Reference} (hscheme : ∀ c ∈ r.scheme, isInner c = true)
    (hauthority : ∀ c ∈ r.authority, isInner c = true) (hpath : ∀ c ∈ r.path, isInner c = true)
    (hparams : ∀ c ∈ r.params, isInner c = true)
    (hfragment : ∀ c ∈ r.fragment, keepsInFragment c = true) :
    Carries fun q ↦ { r with query := q }.chars := by
  let path := if r.params.isEmpty then r.path else r.path ++ ';' :: r.params
  let rooted := if path.isEmpty || path.head? = some '/' then path else '/' :: path
  let located := !r.authority.isEmpty || (!r.scheme.isEmpty &&
    Reference.isOneOf Reference.locatedSchemes r.scheme) || path.take 2 == ['/', '/']
  have hpath' : ∀ c ∈ path, isInner c = true := by
    intro c hc
    simp only [path] at hc
    split at hc
    · exact hpath c hc
    · rcases List.mem_append.mp hc with hc | hc
      · exact hpath c hc
      · rcases List.mem_cons.mp hc with rfl | hc
        · rfl
        · exact hparams c hc
  have hrooted : ∀ c ∈ rooted, isInner c = true := by
    intro c hc
    simp only [rooted] at hc
    split at hc
    · exact hpath' c hc
    · rcases List.mem_cons.mp hc with rfl | hc
      · rfl
      · exact hpath' c hc
  refine .behind ((if r.scheme.isEmpty then [] else r.scheme ++ [':']) ++
    (if located then '/' :: '/' :: (r.authority ++ rooted) else path))
    (if r.fragment.isEmpty then [] else '#' :: r.fragment) (fun c hc ↦ ?_) ?_ fun q hq ↦ ?_
  · rcases List.mem_append.mp hc with hc | hc
    · split at hc
      · cases hc
      · rcases List.mem_append.mp hc with hc | hc
        · exact hscheme c hc
        · rw [List.mem_singleton.mp hc]
          rfl
    · split at hc
      · simp only [List.mem_cons, List.mem_append] at hc
        rcases hc with rfl | rfl | hc | hc
        · rfl
        · rfl
        · exact hauthority c hc
        · exact hrooted c hc
      · exact hpath' c hc
  · split
    · exact .inl rfl
    · exact .inr ⟨r.fragment, rfl, hfragment⟩
  · have hne : q.isEmpty = false := by simpa using hq.1
    simp only [Reference.chars, hne, Bool.false_eq_true, if_false, List.append_assoc,
      List.cons_append]
    rfl

/-- The text of a reference that is resolved against a base depends on the query of the base only if
it has this query as its own. -/
theorem carries_resolve {w u : Url} (hw : Normal w) (hu : Normal u) :
    Carries fun q ↦ resolve { w with query := some q }.chars u.chars := by
  have hbase (q : List Char) : { w with query := some q }.chars =
      w.front ++ '?' :: (q ++ marked '#' w.fragment) := by
    rw [chars_eq]
    simp [marked, front, Url.authority]
  have hnonempty (q : List Char) : { w with query := some q }.chars.isEmpty = false := by
    rw [hbase]
    simp
  by_cases hreference : u.chars.isEmpty = true
  · refine .behind w.front (marked '#' w.fragment) hw.front hw.isTail fun q hq ↦ ?_
    unfold resolve
    rw [hnonempty, hreference]
    exact hbase q
  · obtain ⟨b, hauthority, hpath, hparams, hb⟩ :=
      Reference.ofChars_behind [] hw.front hw.isTail
    have hresolve (q : List Char) (hq : IsPlainQuery q) :
        resolve { w with query := some q }.chars u.chars =
          let r := Reference.ofChars b.scheme u.chars
          if r.scheme ≠ b.scheme || !Reference.isOneOf Reference.relativeSchemes r.scheme then
            u.chars
          else if Reference.isOneOf Reference.locatedSchemes r.scheme && !r.authority.isEmpty then
            r.chars
          else
            let authority :=
              if Reference.isOneOf Reference.locatedSchemes r.scheme then b.authority
              else r.authority
            if r.path.isEmpty && r.params.isEmpty then
              { r with
                authority, path := b.path, params := b.params
                query := if r.query.isEmpty then q else r.query }.chars
            else { r with authority, path := Reference.resolvePath b.path r.path }.chars := by
      unfold resolve
      rw [hnonempty, Bool.eq_false_iff.mpr hreference, hbase, hb q hq.2]
      rfl
    have hrauthority : ∀ c ∈ (Reference.ofChars b.scheme u.chars).authority, isInner c = true :=
      fun c hc ↦ isInner_of_mem_cutAuthority hc
    have hrfragment := Reference.keepsInFragment_of_mem_fragment hu b.scheme
    dsimp only at hresolve
    generalize Reference.ofChars b.scheme u.chars = r at hresolve hrauthority hrfragment
    -- only a reference without path, parameters and query has the query of the base
    by_cases hforeign : (r.scheme ≠ b.scheme ||
        !Reference.isOneOf Reference.relativeSchemes r.scheme) = true
    · exact .not u.chars fun q hq ↦ by rw [hresolve q hq, if_pos hforeign]
    · by_cases hlocated : (Reference.isOneOf Reference.locatedSchemes r.scheme &&
          !r.authority.isEmpty) = true
      · exact .not r.chars fun q hq ↦ by rw [hresolve q hq, if_neg hforeign, if_pos hlocated]
      · let authority := if Reference.isOneOf Reference.locatedSchemes r.scheme then b.authority
          else r.authority
        by_cases hpathless : (r.path.isEmpty && r.params.isEmpty) = true
        · by_cases hquery : r.query.isEmpty = true
          · have hscheme : Reference.isOneOf Reference.relativeSchemes r.scheme = true := by
              simp only [Bool.or_eq_true, not_or, Bool.not_eq_true', Bool.not_eq_false] at hforeign
              exact hforeign.2
            have hinner : ∀ c ∈ authority, isInner c = true := by
              intro c hc
              simp only [authority] at hc
              split at hc
              · exact hauthority c hc
              · exact hrauthority c hc
            refine (@carries_chars { r with authority, path := b.path, params := b.params }
              (Reference.isInner_of_isOneOf hscheme) hinner hpath hparams hrfragment).congr
                fun q hq ↦ ?_
            rw [hresolve q hq, if_neg hforeign, if_neg hlocated, if_pos hpathless, if_pos hquery]
          · refine .not { r with authority, path := b.path, params := b.params }.chars fun q hq ↦ ?_
            rw [hresolve q hq, if_neg hforeign, if_neg hlocated, if_pos hpathless, if_neg hquery]
        · refine .not { r with authority, path := Reference.resolvePath b.path r.path }.chars
            fun q hq ↦ ?_
          rw [hresolve q hq, if_neg hforeign, if_neg hlocated, if_neg hpathless]

/-- Joining a reference to a base passes the query of the base on, or does not use it. -/
theorem inherits_join {w u : Url} (hw : Normal w) (hu : Normal u) :
    ∃ fixed inherits, Inherits (fun q ↦ { w with query := some q }.join u) fixed inherits := by
  cases carries_resolve hw hu with
  | not fixed h =>
    refine ⟨parse fixed, false, fun v hv ↦ normal_of_parse hv, fun q hq ↦ .inr ?_⟩
    show parse (resolve { w with query := some q }.chars u.chars) = _
    rw [h q hq]
    rcases parse fixed <;> rfl
  | behind A tail hA htail h =>
    obtain ⟨fixed, hfixed⟩ := parse_behind hA htail
    refine ⟨fixed, true, hfixed.normal, fun q hq ↦ ?_⟩
    have hjoin : { w with query := some q }.join u = parse (A ++ '?' :: (q ++ tail)) :=
      congrArg parse (h q hq)
    rw [hjoin]
    exact hfixed.eq q hq

end Url

end Admission
