import Admission.Proofs.Probe.Address

/-!
# Addresses of questions read back

The address of a question has the parts of its template, with the encoded values in the place of
their placeholders (`splitOn_questionUrl`, `map_filledPart`). So each value is read back from its
own part, and values that differ give addresses that differ. Braces are encoded too: an address has
none, so a value that looks like a placeholder stays as it is, however often an address is filled
again (`address_reversible`).
-/

set_option autoImplicit false
set_option relaxedAutoImplicit false

namespace Admission

/-! ### Texts without braces -/

/-- A text without braces has no fields. -/
theorem Template.piecesWithin_of_braceless {cs : List Char} (h : ∀ c ∈ cs, c ≠ '{' ∧ c ≠ '}')
    {fuel : Nat} (hfuel : cs.length < fuel) : piecesWithin fuel cs = cs.map .plain := by
  induction cs generalizing fuel with
  | nil =>
    obtain ⟨fuel, rfl⟩ := Nat.exists_eq_succ_of_ne_zero (Nat.ne_zero_of_lt hfuel)
    rfl
  | cons c cs ih =>
    obtain ⟨fuel, rfl⟩ := Nat.exists_eq_succ_of_ne_zero (Nat.ne_zero_of_lt hfuel)
    obtain ⟨hopen, hclose⟩ := h c List.mem_cons_self
    have hrest : piecesWithin fuel cs = cs.map .plain :=
      ih (fun d hd ↦ h d (List.mem_cons_of_mem c hd)) (Nat.lt_of_succ_lt_succ hfuel)
    rw [piecesWithin, hrest, List.map_cons]
    · exact fun _ hc ↦ absurd hc hopen
    · exact fun _ hc ↦ absurd hc hclose
    · exact fun hc ↦ absurd hc hopen
    · exact hclose
    · exact hopen

namespace Probe

open Text Url

/-- A text without braces stays as it is, whatever it is filled with. -/
theorem address_of_braceless {text : String} (h : ∀ c ∈ text.toList, c ≠ '{' ∧ c ≠ '}')
    (values : List (String × String)) : address text values = .ok text := by
  have hfills : Template.Fills (values.map fun v ↦ (v.1.toList, segment v.2))
      (Template.pieces text.toList) text.toList := by
    rw [Template.pieces, Template.piecesWithin_of_braceless h (Nat.lt_succ_self _)]
    exact Template.fills_plain text.toList
  rw [address_eq rfl hfills, String.ofList_toList]

/-! ### Templates and their values -/

/-- The template for the question about a group. -/
def questionTemplate (settings : ProviderSettings) : Group → String
  | .organization _ => settings.userOrgUrl
  | .team _ _ => settings.userTeamUrl

/-- The values for the fields of that template. -/
def questionValues (username : String) : Group → List (String × String)
  | .organization org => [("org", org), ("username", username)]
  | .team org name => [("org", org), ("team", name), ("username", username)]

theorem questionAddress_eq_address (settings : ProviderSettings) (username : String)
    (group : Group) : questionAddress settings username group =
      address (questionTemplate settings group) (questionValues username group) := by
  cases group <;> rfl

/-- How a template names a value. -/
def placeholder (name : String) : List Char :=
  '{' :: name.toList ++ ['}']

/-- A part of a template with the segment of a value in the place of its placeholder. -/
def filledPart (values : List (String × String)) (part : List Char) : List Char :=
  match values.find? fun v ↦ placeholder v.1 = part with
  | some v => segment v.2
  | none => part

variable {username username' : String} {group group' : Group}

/-- The parts of scheme and host of the default addresses. -/
def hostParts : List (List Char) :=
  ["https:".toList, [], "api.github.com".toList]

/-- The parts of the default templates: the default host, and the words and names of a path. -/
def templateParts : Group → List (List Char)
  | .organization _ =>
    hostParts ++ ["orgs".toList, placeholder "org", "members".toList, placeholder "username"]
  | .team _ _ =>
    hostParts ++ ["orgs".toList, placeholder "org", "teams".toList, placeholder "team",
      "memberships".toList, placeholder "username"]

theorem splitOn_questionTemplate (group : Group) :
    (questionTemplate {} group).toList.splitOn '/' = templateParts group := by
  cases group with
  | organization org =>
    exact (by decide +kernel :
      ({} : ProviderSettings).userOrgUrl.toList.splitOn '/' = templateParts (.organization ""))
  | team org name =>
    exact (by decide +kernel :
      ({} : ProviderSettings).userTeamUrl.toList.splitOn '/' = templateParts (.team "" ""))

theorem map_filledPart (username : String) (group : Group) :
    (templateParts group).map (filledPart (questionValues username group)) =
      hostParts ++ (questionSegments username group).tail := by
  cases group <;>
    simp [templateParts, hostParts, filledPart, questionValues, questionSegments, placeholder]

/-- Each value has its placeholder in the template, and its segment takes the place of it. -/
theorem placeholder_mem_and_filledPart {value : String × String}
    (h : value ∈ questionValues username group) :
    placeholder value.1 ∈ templateParts group ∧
      filledPart (questionValues username group) (placeholder value.1) = segment value.2 := by
  cases group with
  | organization org =>
    simp only [questionValues, List.mem_cons, List.not_mem_nil, or_false] at h
    rcases h with rfl | rfl <;> simp [templateParts, filledPart, questionValues, placeholder]
  | team org name =>
    simp only [questionValues, List.mem_cons, List.not_mem_nil, or_false] at h
    rcases h with rfl | rfl | rfl <;> simp [templateParts, filledPart, questionValues, placeholder]

/-! ### The parts of an address -/

/-- The text of the address of a question. -/
def questionUrl (username : String) (group : Group) : List Char :=
  origin ++ questionPath username group

theorem splitOn_questionUrl (username : String) (group : Group) :
    (questionUrl username group).splitOn '/' =
      hostParts ++ (questionSegments username group).tail := by
  have horigin : origin.splitOn '/' = hostParts := by decide +kernel
  obtain ⟨path, hpath⟩ := questionPath_rooted username group
  have hsplit := splitOn_questionPath username group
  rw [hpath, List.splitOn_cons_eq_if_modifyHead, if_pos (beq_self_eq_true '/')] at hsplit
  rw [questionUrl, hpath, List.splitOn_append_cons_self, horigin, ← hsplit, List.tail_cons]

/-- What stands in an address stands for itself in a path. -/
theorem keepsInPath_questionUrl {c : Char} (h : c ∈ questionUrl username group) :
    keepsInPath c = true := by
  have horigin : origin.all keepsInPath = true := by decide
  rcases List.mem_append.mp h with h | h
  · exact List.all_eq_true.mp horigin c h
  · exact keepsInPath_questionPath c h

theorem not_mem_marks {c : Char} (h : c ∈ questionUrl username group) :
    c ∉ "?#\x7b\x7d".toList := by
  intro hmark
  have hnone : "?#\x7b\x7d".toList.all (fun d ↦ !keepsInPath d) = true := by decide
  have hleft := List.all_eq_true.mp hnone c hmark
  rw [keepsInPath_questionUrl h] at hleft
  cases hleft

theorem address_questionTemplate (username : String) (group : Group) :
    address (questionTemplate {} group) (questionValues username group) =
      .ok (String.ofList (questionUrl username group)) := by
  rw [← questionAddress_eq_address]
  exact questionAddress_default ⟨rfl, rfl⟩ username group

/-- The address of a question tells the user and the group. -/
theorem questionUrl_inj (h : questionUrl username' group' = questionUrl username group) :
    username' = username ∧ group' = group := by
  have hsegments : questionSegments username' group' = questionSegments username group := by
    rw [← splitOn_questionPath, List.append_cancel_left h, splitOn_questionPath]
  cases group' with
  | organization org' =>
    cases group with
    | organization org =>
      simp only [questionSegments, List.cons.injEq, and_true, true_and] at hsegments
      exact ⟨segment_inj hsegments.2, congrArg _ (segment_inj hsegments.1)⟩
    | team org name => simp [questionSegments] at hsegments
  | team org' name' =>
    cases group with
    | organization org => simp [questionSegments] at hsegments
    | team org name =>
      simp only [questionSegments, List.cons.injEq, and_true, true_and] at hsegments
      obtain ⟨horg, hname, husername⟩ := hsegments
      exact ⟨segment_inj husername, congrArg₂ _ (segment_inj horg) (segment_inj hname)⟩

/-- With the default templates, the address of a question has the parts of its template, with a
segment for each value in the place of its placeholder. The segment has the octets of the value in
UTF-8 and is read back as the value. No value adds a slash, a query, a fragment or a brace; filling
the address again, with whatever values, leaves it as it is. Only the same user and group have the
same address. -/
theorem address_reversible (username : String) (group : Group) :
    let template := questionTemplate {} group
    let values := questionValues username group
    let parts := template.toList.splitOn '/'
    ∃ url, address template values = .ok url ∧
      url.toList.splitOn '/' = parts.map (filledPart values) ∧
      (∀ value ∈ values,
        placeholder value.1 ∈ parts ∧
          percentOctets (filledPart values (placeholder value.1)) = encodeUtf8 value.2.toList ∧
          percentDecode (filledPart values (placeholder value.1)) = value.2.toList) ∧
      (∀ c ∈ url.toList, c ∉ "?#\x7b\x7d".toList) ∧
      url.toList.count '/' = template.toList.count '/' ∧
      (∀ others, address url others = .ok url) ∧
      ∀ username' group',
        address (questionTemplate {} group') (questionValues username' group') = .ok url →
          username' = username ∧ group' = group := by
  intro template values parts
  have hparts : parts = templateParts group := splitOn_questionTemplate group
  have hsplit : (questionUrl username group).splitOn '/' = parts.map (filledPart values) := by
    rw [splitOn_questionUrl, ← map_filledPart, hparts]
  refine ⟨String.ofList (questionUrl username group), address_questionTemplate username group, ?_⟩
  rw [String.toList_ofList]
  refine ⟨hsplit, fun value hvalue ↦ ?_, fun _ ↦ not_mem_marks, ?_, fun others ↦ ?_,
    fun username' group' h ↦ ?_⟩
  · obtain ⟨hpart, hfilled⟩ := placeholder_mem_and_filledPart hvalue
    rw [hparts, hfilled]
    exact ⟨hpart, percentOctets_percentEncode (by decide) value.2.toList,
      percentDecode_segment value.2⟩
  · have hlength := congrArg List.length hsplit
    rw [List.length_map, length_splitOn, length_splitOn] at hlength
    exact Nat.succ.inj hlength
  · refine address_of_braceless (fun c hc ↦ ?_) others
    rw [String.toList_ofList] at hc
    constructor
    · rintro rfl
      exact not_mem_marks hc (by decide)
    · rintro rfl
      exact not_mem_marks hc (by decide)
  · rw [address_questionTemplate] at h
    exact questionUrl_inj (String.ofList_injective (Except.ok.inj h))

/-- A value that looks like a placeholder stays what it is. -/
example : questionAddress {} "a/b" (.organization "\x7busername\x7d") =
    .ok "https://api.github.com/orgs/%7Busername%7D/members/a%2Fb" := by
  decide +kernel

end Probe

end Admission
