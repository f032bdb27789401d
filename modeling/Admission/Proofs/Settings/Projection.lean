import Admission.Proofs.Settings.Limits
import Admission.Proofs.Text.Trim
import Admission.Proofs.Value

/-!
# Reading a checked configuration again

The addresses of an accepted configuration are trimmed, and empty exactly if they were given as
blank texts that are not empty (`eq_empty_iff_of_readAddress`): such a text counts as given, though
nothing is left of it. If no address is empty, the configuration is read back from its own fields.
Otherwise an empty address counts as missing then, so that its default comes in, or the
configuration is refused (`normalize_toFields`).
-/

set_option autoImplicit false
set_option relaxedAutoImplicit false

namespace Admission.Configuration

variable {source : Fields} {setting : Setting} {c : Configuration}

/-! ### Addresses -/

/-- The addresses of a configuration with the settings that they are read from. -/
def addresses (c : Configuration) : List (Setting × String) := [
  (.userInfoUrl, c.userInfoUrl), (.userOrgUrl, c.userOrgUrl), (.userTeamUrl, c.userTeamUrl)]

/-- A text that is not empty and of which trimming leaves nothing. -/
def IsBlankText (v : Value) : Prop :=
  ∃ s, v = .str s ∧ s ≠ "" ∧ Text.trim s = ""

/-- An address is the text of its value, trimmed, if this is set, and else its default. -/
theorem readAddress_eq_ok {default url : String}
    (h : readAddress source setting default = .ok url) :
    ∃ s, (if (value source setting).isSet then value source setting else .str default).text? =
      some s ∧ url = Text.trim s := by
  unfold readAddress textOf at h
  dsimp only at h
  split at h
  · rename_i s hs
    exact ⟨s, hs, (Except.ok.inj h).symm⟩
  · cases h

theorem trim_of_readAddress {default url : String}
    (h : readAddress source setting default = .ok url) : Text.trim url = url := by
  obtain ⟨s, -, rfl⟩ := readAddress_eq_ok h
  exact Text.trim_trim s

/-- Of a value that is set, only a text can be blank. -/
theorem eq_empty_iff_of_readAddress {default url : String} (hdefault : Text.trim default ≠ "")
    (h : readAddress source setting default = .ok url) :
    url = "" ↔ IsBlankText (value source setting) := by
  obtain ⟨s, hs, rfl⟩ := readAddress_eq_ok h
  split at hs
  · rename_i hset
    by_cases hstr : ∃ t, value source setting = .str t
    · obtain ⟨t, ht⟩ := hstr
      rw [ht] at hset hs ⊢
      obtain rfl := Option.some.inj hs
      have hne : t ≠ "" := by
        rintro rfl
        cases hset
      constructor
      · exact fun hblank ↦ ⟨t, rfl, hne, hblank⟩
      · rintro ⟨s, hst, -, hblank⟩
        rwa [Value.str.inj hst]
    · rw [not_exists] at hstr
      obtain ⟨c, hc, hvisible⟩ := Value.exists_not_isBlank hset hstr hs
      refine iff_of_false ?_ ?_
      · intro hblank
        rw [Text.trim_eq_empty_iff.mp hblank c hc] at hvisible
        cases hvisible
      · rintro ⟨t, ht, -, -⟩
        exact hstr t ht
  · rename_i hunset
    obtain rfl := Option.some.inj hs
    refine iff_of_false hdefault ?_
    rintro ⟨t, ht, hne, -⟩
    refine hunset ?_
    rw [ht]
    simpa [Value.isSet] using hne

/-! ### Fields -/

/-- What a configuration puts under the key of a setting. -/
def entry (c : Configuration) : Setting → Value
  | .provider => .str c.provider.name
  | .allowAllUsers => .bool c.allowAllUsers
  | .whitelist => c.whitelist
  | .domains => c.domains
  | .teamWhitelist => c.teamWhitelist
  | .userInfoUrl => .str c.userInfoUrl
  | .userOrgUrl => .str c.userOrgUrl
  | .userTeamUrl => .str c.userTeamUrl
  | .httpTimeout => .float c.httpTimeout
  | .probeTimeout => .float c.probeTimeout
  | .probeMaxRetries => .int c.probeMaxRetries
  | .probeBackoff => .float c.probeBackoff
  | .probeBackoffCap => .float c.probeBackoffCap
  | .probeConcurrency => .int c.probeConcurrency

theorem get?_toFields (c : Configuration) (setting : Setting) :
    c.toFields.get? setting.key = some (c.entry setting) := by
  cases setting <;> rfl

theorem value_toFields (c : Configuration) (setting : Setting) :
    value c.toFields setting = c.entry setting := by
  rw [value, get?_toFields]
  rfl

/-! ### Reading the fields -/

theorem readProvider_toFields (c : Configuration) : readProvider c.toFields = .ok c.provider := by
  unfold readProvider valueOr
  rw [value_toFields]
  unfold entry
  dsimp only
  generalize c.provider = p
  cases p <;> decide +kernel

theorem readAllowAll_toFields (c : Configuration) :
    readAllowAll c.toFields = .ok c.allowAllUsers := by
  unfold readAllowAll
  rw [get?_toFields]
  rfl

/-- The default comes in where an address is empty. -/
def refill (default url : String) : String :=
  if url = "" then default else url

theorem refill_eq_self_iff {default url : String} (hdefault : default ≠ "") :
    refill default url = url ↔ url ≠ "" := by
  unfold refill
  split
  · rename_i hempty
    simp [hempty, hdefault]
  · rename_i hne
    simp [hne]

theorem readAddress_toFields {default url : String} (hentry : c.entry setting = .str url)
    (hdefault : Text.trim default = default) (hurl : Text.trim url = url) :
    readAddress c.toFields setting default = .ok (refill default url) := by
  unfold readAddress refill
  rw [value_toFields, hentry]
  by_cases hempty : url = ""
  · subst hempty
    show Except.ok (Text.trim default) = _
    rw [hdefault]
    rfl
  · have hset : (Value.str url).isSet = true := by simpa [Value.isSet] using hempty
    dsimp only
    rw [if_pos hset, if_neg hempty]
    show Except.ok (Text.trim url) = _
    rw [hurl]

theorem readPositive_toFields {default x : Binary64} (hentry : c.entry setting = .float x)
    (hx : x.le .zero = false) : readPositive c.toFields setting default = .ok x := by
  unfold readPositive valueOr
  rw [value_toFields, hentry]
  show (if x.le .zero = true then _ else _) = _
  rw [hx]
  rfl

theorem readBackoff_toFields (hx : c.probeBackoff.lt .zero = false) :
    readBackoff c.toFields = .ok c.probeBackoff := by
  unfold readBackoff
  rw [get?_toFields]
  show (if c.probeBackoff.lt .zero = true then _ else _) = _
  rw [hx]
  rfl

theorem readCount_toFields {default least n : Nat} (hentry : c.entry setting = .int n)
    (hn : least ≤ n) : readCount c.toFields setting default least = .ok n := by
  unfold readCount valueOr
  rw [value_toFields, hentry]
  show (if (n : Int) < least then _ else _) = _
  rw [if_neg (by omega)]
  rfl

/-- A number that was not refused does not lie on the wrong side of its bound. -/
theorem refused_eq_false {read : Except Fault Binary64} (refused : Binary64 → Bool) {f : Fault}
    {x : Binary64} (h : (read >>= fun y ↦ if refused y then .error f else return y) = .ok x) :
    refused x = false := by
  obtain ⟨y, -, hkept⟩ := bind_eq_ok h
  split at hkept
  · cases hkept
  · rename_i hrefused
    cases hkept
    exact Bool.eq_false_iff.mpr hrefused

theorem not_le_zero_of_readPositive {default x : Binary64}
    (h : readPositive source setting default = .ok x) : x.le .zero = false :=
  refused_eq_false (fun y ↦ y.le .zero) h

theorem not_lt_zero_of_readBackoff {x : Binary64} (h : readBackoff source = .ok x) :
    x.lt .zero = false :=
  refused_eq_false (fun y ↦ y.lt .zero) h

/-! ### The whole configuration -/

/-- The configuration with defaults in the place of empty addresses. -/
def refilled (c : Configuration) : Configuration :=
  { c with
    userInfoUrl := refill defaults.userInfoUrl c.userInfoUrl
    userOrgUrl := refill defaults.userOrgUrl c.userOrgUrl
    userTeamUrl := refill defaults.userTeamUrl c.userTeamUrl }

theorem trim_defaults :
    Text.trim defaults.userInfoUrl = defaults.userInfoUrl ∧
      Text.trim defaults.userOrgUrl = defaults.userOrgUrl ∧
      Text.trim defaults.userTeamUrl = defaults.userTeamUrl := by
  decide +kernel

/-- Read again, an accepted configuration has its defaults in the place of empty addresses, and is
refused if its provider cannot do without the address that is empty. -/
theorem normalize_toFields (h : normalize source = .ok c) :
    normalize c.toFields =
      if c.provider = .oidc ∧ c.userInfoUrl = "" then
        .error (.badSetting .userInfoUrl .setForOidc)
      else .ok c.refilled := by
  have hread := isReadFrom_of_normalize h
  obtain ⟨hinfo, horg, hteam⟩ := trim_defaults
  have hunset : (!(value c.toFields .userInfoUrl).isSet) = true ↔ c.userInfoUrl = "" := by
    rw [value_toFields]
    simp [entry, Value.isSet]
  unfold normalize
  rw [readProvider_toFields, readAllowAll_toFields,
    readAddress_toFields rfl hinfo (trim_of_readAddress hread.userInfoUrl),
    readAddress_toFields rfl horg (trim_of_readAddress hread.userOrgUrl),
    readAddress_toFields rfl hteam (trim_of_readAddress hread.userTeamUrl),
    readPositive_toFields rfl (not_le_zero_of_readPositive hread.httpTimeout),
    readPositive_toFields rfl (not_le_zero_of_readPositive hread.probeTimeout),
    readPositive_toFields rfl (not_le_zero_of_readPositive hread.probeBackoffCap),
    readBackoff_toFields (not_lt_zero_of_readBackoff hread.probeBackoff),
    readCount_toFields rfl (Nat.zero_le _),
    readCount_toFields rfl (readCount_eq hread.probeConcurrency).2]
  simp only [hunset, Bool.and_eq_true, decide_eq_true_eq, bind, Except.bind]
  split
  · rfl
  · rw [value_toFields, value_toFields, value_toFields]
    rfl

theorem refilled_eq_self_iff : c.refilled = c ↔ ∀ address ∈ c.addresses, address.2 ≠ "" := by
  have hinfo : refill defaults.userInfoUrl c.userInfoUrl = c.userInfoUrl ↔ c.userInfoUrl ≠ "" :=
    refill_eq_self_iff (by decide)
  have horg : refill defaults.userOrgUrl c.userOrgUrl = c.userOrgUrl ↔ c.userOrgUrl ≠ "" :=
    refill_eq_self_iff (by decide)
  have hteam : refill defaults.userTeamUrl c.userTeamUrl = c.userTeamUrl ↔ c.userTeamUrl ≠ "" :=
    refill_eq_self_iff (by decide)
  have haddresses : (∀ address ∈ c.addresses, address.2 ≠ "") ↔
      c.userInfoUrl ≠ "" ∧ c.userOrgUrl ≠ "" ∧ c.userTeamUrl ≠ "" := by
    simp [addresses]
  rw [haddresses, ← hinfo, ← horg, ← hteam]
  constructor
  · intro h
    exact ⟨congrArg userInfoUrl h, congrArg userOrgUrl h, congrArg userTeamUrl h⟩
  · rintro ⟨h₁, h₂, h₃⟩
    unfold refilled
    rw [h₁, h₂, h₃]

/-- The addresses of an accepted configuration are trimmed, and empty exactly if a blank text was
set for them. The first is the operator's own if the provider cannot do without it. The
configuration is read back from its own fields exactly if no blank text was set for an address. -/
theorem normalize_projects (h : normalize source = .ok c) :
    (∀ address ∈ c.addresses, Text.trim address.2 = address.2 ∧
      (address.2 = "" ↔ IsBlankText (value source address.1))) ∧
    (c.provider = .oidc → ∃ v s, source.get? Setting.userInfoUrl.key = some v ∧ v.isSet = true ∧
      v.text? = some s ∧ c.userInfoUrl = Text.trim s) ∧
    (normalize c.toFields = .ok c ↔
      ∀ address ∈ c.addresses, ¬IsBlankText (value source address.1)) := by
  have hread := isReadFrom_of_normalize h
  have haddresses : ∀ address ∈ c.addresses, Text.trim address.2 = address.2 ∧
      (address.2 = "" ↔ IsBlankText (value source address.1)) := by
    simp only [addresses, List.forall_mem_cons, List.not_mem_nil, IsEmpty.forall_iff, implies_true,
      and_true]
    exact ⟨⟨trim_of_readAddress hread.userInfoUrl,
        eq_empty_iff_of_readAddress (by decide +kernel) hread.userInfoUrl⟩,
      ⟨trim_of_readAddress hread.userOrgUrl,
        eq_empty_iff_of_readAddress (by decide +kernel) hread.userOrgUrl⟩,
      ⟨trim_of_readAddress hread.userTeamUrl,
        eq_empty_iff_of_readAddress (by decide +kernel) hread.userTeamUrl⟩⟩
  refine ⟨haddresses, ?_, ?_⟩
  · intro hoidc
    have hset := hread.isSet_userInfoUrl hoidc
    obtain ⟨s, hs, hurl⟩ := readAddress_eq_ok hread.userInfoUrl
    rw [if_pos hset] at hs
    unfold value at hset hs
    rcases hgiven : source.get? Setting.userInfoUrl.key with _ | v
    · rw [hgiven] at hset
      cases hset
    · rw [hgiven] at hset hs
      exact ⟨v, s, rfl, hset, hs, hurl⟩
  · have hblank : (∀ address ∈ c.addresses, ¬IsBlankText (value source address.1)) ↔
        ∀ address ∈ c.addresses, address.2 ≠ "" :=
      forall₂_congr fun address hmem ↦ not_congr (haddresses address hmem).2.symm
    rw [hblank, normalize_toFields h]
    split
    · rename_i hrefused
      refine iff_of_false (by simp) ?_
      exact fun hnonempty ↦ hnonempty (.userInfoUrl, c.userInfoUrl) (by simp [addresses]) hrefused.2
    · rw [Except.ok.injEq, refilled_eq_self_iff]

/-- An address with blanks around it is trimmed, and the configuration is read back. -/
theorem normalize_projects_padded :
    ∃ c, normalize [("PROVIDER", .str " OIDC "), ("USER_INFO_URL", .str " https://id.example/u\n"),
        ("PROBE_TIMEOUT", .str "7.5")] = .ok c ∧
      c.userInfoUrl = "https://id.example/u" ∧ normalize c.toFields = .ok c := by
  have hvalues : (normalize [("PROVIDER", .str " OIDC "),
      ("USER_INFO_URL", .str " https://id.example/u\n"),
      ("PROBE_TIMEOUT", .str "7.5")]).toOption.map (fun c ↦
        (c.userInfoUrl, c.addresses.all (·.2 != ""))) = some ("https://id.example/u", true) := by
    decide +kernel
  obtain ⟨c, hc, hvalues⟩ := Option.map_eq_some_iff.mp hvalues
  obtain ⟨hurl, hnonempty⟩ : c.userInfoUrl = "https://id.example/u" ∧
      c.addresses.all (·.2 != "") = true := by simpa using hvalues
  have haccepted := eq_ok_of_toOption hc
  obtain ⟨haddresses, -, hagain⟩ := normalize_projects haccepted
  refine ⟨c, haccepted, hurl, hagain.mpr fun address hmem hblank ↦ ?_⟩
  have hempty := (haddresses address hmem).2.mpr hblank
  simpa [hempty] using List.all_eq_true.mp hnonempty address hmem

/-- Blanks count as an address of the operator, of which nothing is left. The configuration is then
refused when it is read back. -/
theorem normalize_blankAddress :
    ∃ c, normalize [("PROVIDER", .str "oidc"), ("USER_INFO_URL", .str "  ")] = .ok c ∧
      c.userInfoUrl = "" ∧
      normalize c.toFields = .error (.badSetting .userInfoUrl .setForOidc) := by
  have hvalues : (normalize [("PROVIDER", .str "oidc"),
      ("USER_INFO_URL", .str "  ")]).toOption.map (fun c ↦ (c.provider, c.userInfoUrl)) =
      some (.oidc, "") := by
    decide +kernel
  obtain ⟨c, hc, hvalues⟩ := Option.map_eq_some_iff.mp hvalues
  obtain ⟨hoidc, hurl⟩ : c.provider = .oidc ∧ c.userInfoUrl = "" := by simpa using hvalues
  have haccepted := eq_ok_of_toOption hc
  refine ⟨c, haccepted, hurl, ?_⟩
  rw [normalize_toFields haccepted, if_pos ⟨hoidc, hurl⟩]

end Admission.Configuration
