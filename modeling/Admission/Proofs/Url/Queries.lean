import Admission.Proofs.Url.Inherited

/-!
# Addresses whose query is replaced

Putting a query of encoded pairs into an address changes nothing else of it, unless a length is
exceeded (`inherits_withQuery`), and taking the pairs out again leaves nothing of them
(`Inherits.withoutParameter`). An address without the pairs of a name is read back from its text
with the same query, so what is requested then has no pair of that name either
(`ne_name_of_withoutParameter`, `query_parse`, `query_asRequested`).
-/

set_option autoImplicit false
set_option relaxedAutoImplicit false

namespace Admission.Url

open Text

/-! ### Encoded pairs stand for themselves -/

theorem keepsInQuery_of_isPairChar {c : Char} (h : Form.isPairChar c = true) :
    keepsInQuery c = true := by
  have hlt : c.toNat < 128 := by
    simp only [Form.isPairChar, Form.isEncoded, Bool.or_eq_true, beq_iff_eq] at h
    rcases h with ((hunreserved | rfl) | rfl) | rfl | rfl
    · exact lt_of_isUnreserved hunreserved
    all_goals decide
  exact forall_ascii (P := fun c ↦ Form.isPairChar c = true → keepsInQuery c = true)
    (by decide +kernel) hlt h

theorem isPlainQuery_encodePair (name value : List Char) :
    IsPlainQuery (Form.encodePair name value) :=
  ⟨Form.encodePair_ne_nil name value, fun _ hc ↦
    keepsInQuery_of_isPairChar (Form.isPairChar_of_mem_encodePair hc)⟩

theorem keepsInQuery_of_mem_encode {pairs : Form.Pairs} {c : Char} (h : c ∈ Form.encode pairs) :
    keepsInQuery c = true := by
  have key : ∀ texts : List (List Char), (∀ text ∈ texts, ∀ d ∈ text, keepsInQuery d = true) →
      ∀ d ∈ ['&'].intercalate texts, keepsInQuery d = true := by
    intro texts
    induction texts with
    | nil => exact fun _ ↦ nofun
    | cons text texts ih =>
      intro htexts d hd
      have hfirst := htexts text List.mem_cons_self
      rcases texts with _ | ⟨text', texts⟩
      · rw [List.intercalate_singleton] at hd
        exact hfirst d hd
      · rw [List.intercalate_cons_cons] at hd
        rcases List.mem_append.mp hd with hd | hd
        · rcases List.mem_append.mp hd with hd | hd
          · exact hfirst d hd
          · rw [List.mem_singleton.mp hd]
            rfl
        · exact ih (fun t ht ↦ htexts t (List.mem_cons_of_mem text ht)) d hd
  refine key _ (fun text htext d hd ↦ ?_) c h
  obtain ⟨p, -, hp⟩ := List.mem_flatMap.mp htext
  obtain ⟨value, -, rfl⟩ := List.mem_map.mp hp
  exact keepsInQuery_of_isPairChar (Form.isPairChar_of_mem_encodePair hd)

/-! ### Replacing a query -/

/-- A query that stands for itself is refused for its length only. -/
theorem checkPart_query {q : List Char} (hq : ∀ c ∈ q, keepsInQuery c = true) :
    checkPart .query q = .error (.partTooLong .query) ∨ checkPart .query q = .ok () := by
  have hprintable : q.findIdx? isUnprintable = none :=
    List.findIdx?_eq_none_iff.mpr fun c hc ↦ isUnprintable_of_keepsInQuery (hq c hc)
  have hform : hasForm .query q = true := by
    simp only [hasForm, Bool.not_eq_true', List.contains_eq_mem, decide_eq_false_iff_not]
    exact fun hc ↦ absurd (hq '#' hc) (by decide)
  unfold checkPart
  split
  · exact .inl rfl
  · exact .inr (by rw [hprintable])

/-- What parts with a query are put together to depends on the query in its query only, unless the
query is too long. -/
theorem assemble_query (p : Parts) {q : List Char} (hq : IsPlainQuery q) :
    FailsBy Defect.isTooLong (assemble { p with query := some q }) ∨
      assemble { p with query := some q } =
        (assemble { p with query := none }).map (carry true q) := by
  unfold assemble
  dsimp only
  rcases checkPart .scheme p.scheme with d | -
  · exact .inr rfl
  · rcases checkPart .authority p.authority with d | -
    · exact .inr rfl
    · rcases checkPart .path p.path with d | -
      · exact .inr rfl
      · rcases checkPart_query hq.2 with hlong | hfits
        · refine .inl ⟨.partTooLong .query, ?_, rfl⟩
          rw [show checkOptional .query (some q) = .error _ from hlong]
          rfl
        · right
          rw [ofParts_query p hq.2, show checkOptional .query (some q) = .ok () from hfits]
          rcases checkOptional .fragment p.fragment with d | -
          · rfl
          · rcases checkOptional .host p.host with d | - <;> rfl

/-- An address with another query is the address with that query, unless the query is too long. -/
theorem inherits_withQuery (u : Url) :
    Inherits (fun q ↦ u.withQuery (some q)) (u.withQuery none) true :=
  ⟨fun _ hv ↦ normal_of_withQuery hv, fun _ hq ↦ assemble_query u.parts hq⟩

/-- Whatever is made with a query passes it on when a fragment is added. -/
theorem Inherits.withFragment {result : List Char → Except Defect Url} {fixed : Except Defect Url}
    {inherits : Bool} (h : Inherits result fixed inherits) (fragment : Option (List Char)) :
    ∃ fixed', Inherits (fun q ↦ result q >>= (·.withFragment fragment)) fixed' inherits := by
  cases inherits with
  | false =>
    refine ⟨fixed >>= (·.withFragment fragment), fun v hv ↦ ?_, fun q hq ↦ ?_⟩
    · obtain ⟨u, -, hu⟩ := bind_eq_ok hv
      exact normal_of_withFragment hu
    · rcases h.eq q hq with hlong | heq
      · exact .inl (hlong.bind _)
      · right
        show result q >>= _ = _
        rw [heq]
        rcases fixed with d | u
        · rfl
        · show u.withFragment fragment = (u.withFragment fragment).map (carry false q)
          rcases u.withFragment fragment <;> rfl
  | true =>
    refine ⟨fixed >>= fun u ↦ { u with query := none }.withFragment fragment, fun v hv ↦ ?_,
      fun q hq ↦ ?_⟩
    · obtain ⟨u, -, hu⟩ := bind_eq_ok hv
      exact normal_of_withFragment hu
    · rcases h.eq q hq with hlong | heq
      · exact .inl (hlong.bind _)
      · show FailsBy Defect.isTooLong (result q >>= _) ∨ result q >>= _ = _
        rw [heq]
        rcases fixed with d | u
        · exact .inr rfl
        · exact assemble_query { u.parts with fragment } hq

/-- Taking a pair out of whatever is made with it leaves nothing of its value. -/
theorem Inherits.withoutParameter {result : List Char → Except Defect Url}
    {fixed : Except Defect Url} {inherits : Bool} (h : Inherits result fixed inherits)
    (name : List Char) :
    ∃ fixed', ∀ value,
      FailsBy Defect.isTooLong
          (result (Form.encodePair name value) >>= (·.withoutParameter name)) ∨
        result (Form.encodePair name value) >>= (·.withoutParameter name) = fixed' := by
  have hremove (value : List Char) :
      Form.remove (Form.decode (Form.encodePair name value)) name = [] := by
    rw [Form.decode_encodePair]
    simp [Form.remove]
  cases inherits with
  | false =>
    refine ⟨fixed >>= (·.withoutParameter name), fun value ↦ ?_⟩
    rcases h.eq _ (isPlainQuery_encodePair name value) with hlong | heq
    · exact .inl (hlong.bind _)
    · right
      rw [heq]
      rcases fixed <;> rfl
  | true =>
    refine ⟨fixed >>= (·.withQuery none), fun value ↦ ?_⟩
    rcases h.eq _ (isPlainQuery_encodePair name value) with hlong | heq
    · exact .inl (hlong.bind _)
    · right
      rw [heq]
      rcases fixed with d | u
      · rfl
      · show { u with query := some (Form.encodePair name value) }.withoutParameter name = _
        unfold Url.withoutParameter
        rw [Option.getD_some, hremove]
        rfl

/-! ### Reading an address back -/

/-- In front of what is left behind a scheme there are no marks. -/
theorem cutScheme_inner (cs : List Char) :
    ∃ A, (∀ c ∈ A, isInner c = true) ∧ cs = A ++ (cutScheme cs).2 := by
  unfold cutScheme
  rw [List.span_eq_takeWhile_dropWhile]
  dsimp only
  split
  · rename_i rest hrest
    split
    · refine ⟨cs.takeWhile isSchemeChar ++ [':'], fun c hc ↦ ?_, ?_⟩
      · rcases List.mem_append.mp hc with hc | hc
        · exact isInner_of_isSchemeChar (List.mem_takeWhile_imp hc)
        · rw [List.mem_singleton.mp hc]
          rfl
      · rw [List.append_assoc, List.singleton_append, ← hrest, List.takeWhile_append_dropWhile]
    · exact ⟨[], nofun, rfl⟩
  · exact ⟨[], nofun, rfl⟩

/-- In front of what is left behind an authority there are no marks. -/
theorem cutAuthority_inner (cs : List Char) :
    ∃ A, (∀ c ∈ A, isInner c = true) ∧ cs = A ++ (cutAuthority cs).2 := by
  by_cases hslashes : ∃ rest, cs = '/' :: '/' :: rest
  · obtain ⟨rest, rfl⟩ := hslashes
    refine ⟨'/' :: '/' :: (cutAuthority ('/' :: '/' :: rest)).1, fun c hc ↦ ?_, ?_⟩
    · simp only [List.mem_cons] at hc
      rcases hc with rfl | rfl | hc
      · rfl
      · rfl
      · exact isInner_of_mem_cutAuthority hc
    · simp only [cutAuthority, List.span_eq_takeWhile_dropWhile, List.cons_append,
        List.takeWhile_append_dropWhile]
  · refine ⟨[], nofun, ?_⟩
    unfold cutAuthority
    split
    · rename_i rest
      exact absurd ⟨rest, rfl⟩ hslashes
    · rfl

/-- The query of a text begins at its first mark if that is a question mark. -/
theorem query_cut (cs : List Char) :
    (cut cs).query = (cutMarked '?' ['#'] (cs.dropWhile isInner)).1 := by
  obtain ⟨A, hA, hscheme⟩ := cutScheme_inner cs
  obtain ⟨B, hB, hauthority⟩ := cutAuthority_inner (cutScheme cs).2
  have hstop : (fun c ↦ !(['?', '#'].contains c)) = isInner := by
    funext c
    rw [Bool.eq_iff_iff]
    simp [isInner]
  have hrest : cs.dropWhile isInner =
      (cutAuthority (cutScheme cs).2).2.dropWhile isInner := by
    conv_lhs => rw [hscheme, hauthority]
    rw [List.dropWhile_append_of_pos hA, List.dropWhile_append_of_pos hB]
  simp only [cut, hstop, List.span_eq_takeWhile_dropWhile, hrest]

/-- The query of an address in normal form is the one of its text. -/
theorem query_cut_chars {u : Url} (hu : Normal u) : (cut u.chars).query = u.query := by
  rw [query_cut, chars_eq, List.append_assoc, List.dropWhile_append_of_pos hu.front]
  have hstop : (fun c ↦ !(['#'].contains c)) = fun c : Char ↦ c != '#' := by
    funext c
    rw [Bool.eq_iff_iff]
    simp
  rcases hq : u.query with _ | q
  · rcases u.fragment with _ | f <;> rfl
  · have hdrop : (marked '?' (some q) ++ marked '#' u.fragment).dropWhile isInner =
        '?' :: (q ++ marked '#' u.fragment) := rfl
    have hspan := span_tail (fun c hc ↦ keepsInQuery_ne_number (hu.query q hq c hc)) hu.isTail
    rw [hdrop]
    simp only [cutMarked, if_true, hstop, hspan]

/-- An address that is read back from its text has the same query. -/
theorem query_parse {u v : Url} (hu : Normal u) (h : parse u.chars = .ok v) :
    v.query = u.query := by
  unfold parse at h
  split at h
  · cases h
  · split at h
    · cases h
    · obtain ⟨-, -, -, -, -, -, -, hquery, -⟩ := ofParts_ok h
      rw [hquery, query_cut_chars hu]
      rcases hq : u.query with _ | q
      · rfl
      · exact congrArg some (percentEncode_of_keeps (hu.query q hq))

theorem query_assemble {p : Parts} {u : Url} (h : assemble p = .ok u) :
    u.query = p.query.map (percentEncode keepsInQuery) := by
  obtain ⟨-, -, h⟩ := assemble_ok h
  obtain ⟨-, -, -, -, -, -, -, hquery, -⟩ := ofParts_ok h
  exact hquery

/-- What is requested for an address has its query. -/
theorem query_asRequested {u v : Url} (hu : Normal u) (h : u.asRequested = .ok v) :
    v.query = u.query := by
  unfold asRequested at h
  split at h
  · cases h
    rfl
  · let path := if u.path.isEmpty then ['/'] else u.path
    let rooted := '/' :: path.dropWhile (· == '/')
    have hrooted : ∀ c ∈ rooted, (c != '?') = true := by
      intro c hc
      rcases List.mem_cons.mp hc with rfl | hc
      · rfl
      · have hc' := (List.dropWhile_sublist _).subset hc
        simp only [path] at hc'
        split at hc'
        · rw [List.mem_singleton.mp hc']
          rfl
        · exact bne_iff_ne.mpr (isInner_iff.mp (hu.path c hc')).1
    have htarget : '/' :: u.target.dropWhile (· == '/') = rooted ++ marked '?' u.query := by
      show '/' :: (path ++ marked '?' u.query).dropWhile (· == '/') = _
      rw [List.dropWhile_append]
      split
      · rename_i hempty
        simp only [rooted, List.isEmpty_iff.mp hempty]
        rcases u.query <;> rfl
      · rfl
    have hspan : (rooted ++ marked '?' u.query).span (· != '?') =
        (rooted, marked '?' u.query) := by
      rcases u.query with _ | q
      · rw [marked, List.append_nil, span_eq_self hrooted]
      · exact span_append_cons hrooted rfl
    rw [htarget] at h
    simp only [hspan] at h
    rw [query_assemble h]
    rcases hq : u.query with _ | q
    · rfl
    · exact congrArg some (percentEncode_of_keeps (hu.query q hq))

/-- An address from which the pairs of a name were taken has no such pair. -/
theorem ne_name_of_withoutParameter {u v : Url} {name : List Char}
    (h : u.withoutParameter name = .ok v) :
    ∀ p ∈ Form.decode (v.query.getD []), p.1 ≠ name := by
  intro p hp
  have hquery := query_assemble h
  dsimp only at hquery
  split at hquery
  · rw [hquery] at hp
    cases hp
  · rw [hquery, Option.map_some, Option.getD_some,
      percentEncode_of_keeps fun c hc ↦ keepsInQuery_of_mem_encode hc] at hp
    obtain ⟨q, hq, hname⟩ := Form.name_of_mem_decode_encode hp
    rw [← hname]
    simpa [Form.remove] using (List.mem_filter.mp hq).2

end Admission.Url
