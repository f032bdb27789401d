import Admission.Proofs.Settings.Flaws

/-!
# Refused configurations

A configuration is accepted exactly if no setting is at fault, and refused because of the setting at
fault that is checked first (`normalize_eq_error_iff`). The refusal names this setting, unless the
conversion of its value broke off (`normalize_names`): an integer may be too long for a text, or too
large for a floating point number, and a count may be infinite.
-/

set_option autoImplicit false
set_option relaxedAutoImplicit false

namespace Admission.Configuration

open Setting (Kind)

variable {source : Fields} {setting : Setting} {kind : Kind} {v : Value} {f : Fault}

/-! ### The order of the checks -/

/-- The place of a fault of a setting in the order of the checks. -/
def turn : Setting → Fault → Nat
  | .provider, _ => 0
  | .allowAllUsers, _ => 1
  | .userInfoUrl, .badSetting _ _ => 5
  | .userInfoUrl, _ => 2
  | .userOrgUrl, _ => 3
  | .userTeamUrl, _ => 4
  | .httpTimeout, _ => 6
  | .probeTimeout, _ => 7
  | .probeBackoffCap, _ => 8
  | .probeBackoff, _ => 9
  | .probeMaxRetries, _ => 10
  | .probeConcurrency, _ => 11
  | .whitelist, _ | .domains, _ | .teamWhitelist, _ => 12

/-- What refuses an outcome, if anything does. -/
def refusal? {α : Type} : Except Fault α → Option Fault
  | .ok _ => none
  | .error f => some f

theorem refusal?_eq_some_iff {α : Type} {x : Except Fault α} :
    refusal? x = some f ↔ x = .error f := by
  cases x <;> simp [refusal?]

/-- The address of the profile is demanded of a provider without a known one. -/
def demanded (source : Fields) : Except Fault Unit :=
  if readProvider source = .ok .oidc ∧ (value source .userInfoUrl).isSet = false then
    .error (.badSetting .userInfoUrl .setForOidc)
  else .ok ()

/-- What the checks come to, in their order. -/
def checks (source : Fields) : List (Option Fault) := [
  refusal? (readProvider source),
  refusal? (readAllowAll source),
  refusal? (readAddress source .userInfoUrl defaults.userInfoUrl),
  refusal? (readAddress source .userOrgUrl defaults.userOrgUrl),
  refusal? (readAddress source .userTeamUrl defaults.userTeamUrl),
  refusal? (demanded source),
  refusal? (readPositive source .httpTimeout defaults.httpTimeout),
  refusal? (readPositive source .probeTimeout defaults.probeTimeout),
  refusal? (readPositive source .probeBackoffCap defaults.probeBackoffCap),
  refusal? (readBackoff source),
  refusal? (readCount source .probeMaxRetries defaults.probeMaxRetries 0),
  refusal? (readCount source .probeConcurrency defaults.probeConcurrency 1)]

theorem refusal?_normalize (source : Fields) :
    refusal? (normalize source) = (checks source).findSome? id := by
  have hbind {α β : Type} (x : Except Fault α) (g : α → Except Fault β) (rest : List (Option Fault))
      (h : ∀ a, x = .ok a → refusal? (g a) = rest.findSome? id) :
      refusal? (x >>= g) = (refusal? x :: rest).findSome? id := by
    rcases x with e | a
    · rfl
    · exact h a rfl
  unfold normalize checks
  refine hbind _ _ _ fun provider hprovider ↦ ?_
  refine hbind _ _ _ fun allowAllUsers _ ↦ ?_
  refine hbind _ _ _ fun userInfoUrl _ ↦ ?_
  refine hbind _ _ _ fun userOrgUrl _ ↦ ?_
  refine hbind _ _ _ fun userTeamUrl _ ↦ ?_
  unfold demanded
  rw [hprovider]
  by_cases hunset : provider = .oidc ∧ (value source .userInfoUrl).isSet = false
  · simp [hunset, refusal?]
  · rw [if_neg (by simpa using hunset), if_neg (by simpa using hunset)]
    refine hbind _ _ _ fun httpTimeout _ ↦ ?_
    refine hbind _ _ _ fun probeTimeout _ ↦ ?_
    refine hbind _ _ _ fun probeBackoffCap _ ↦ ?_
    refine hbind _ _ _ fun probeBackoff _ ↦ ?_
    refine hbind _ _ _ fun probeMaxRetries _ ↦ ?_
    exact hbind _ _ _ fun probeConcurrency _ ↦ rfl

/-- The first of some options that holds something is the one in front of all others that do. -/
theorem findSome?_id_eq_some_iff {α : Type} {l : List (Option α)} {a : α} :
    l.findSome? id = some a ↔
      ∃ i : Nat, l[i]? = some (some a) ∧ ∀ (j : Nat) (b : α), l[j]? = some (some b) → i ≤ j := by
  induction l with
  | nil => simp
  | cons x l ih =>
    rcases x with _ | b
    · rw [List.findSome?_cons_of_isNone (by rfl), ih]
      constructor
      · rintro ⟨i, hi, hfirst⟩
        refine ⟨i + 1, hi, ?_⟩
        rintro (_ | j) b hj
        · cases hj
        · exact Nat.succ_le_succ (hfirst j b hj)
      · rintro ⟨_ | i, hi, hfirst⟩
        · cases hi
        · exact ⟨i, hi, fun j b hj ↦ Nat.le_of_succ_le_succ (hfirst (j + 1) b hj)⟩
    · rw [List.findSome?_cons_of_isSome (by rfl)]
      constructor
      · intro h
        exact ⟨0, congrArg some h, fun j _ _ ↦ Nat.zero_le j⟩
      · rintro ⟨i, hi, hfirst⟩
        obtain rfl : i = 0 := Nat.le_zero.mp (hfirst 0 b rfl)
        exact Option.some.inj hi

theorem demanded_eq_error_iff :
    demanded source = .error f ↔
      (readProvider source = .ok .oidc ∧ (value source .userInfoUrl).isSet = false) ∧
        f = .badSetting .userInfoUrl .setForOidc := by
  unfold demanded
  split
  · rename_i h
    simp [h, @eq_comm _ f]
  · rename_i h
    simp [h]

theorem flaw_userInfoUrl_iff (default : String) :
    Flaw source .userInfoUrl f ↔
      (readAddress source .userInfoUrl default = .error f ∧ f = .integerTooLong) ∨
        demanded source = .error f := by
  rw [readAddress_eq_error_iff rfl, demanded_eq_error_iff]
  constructor
  · rintro (⟨hgiven, hmisfit⟩ | ⟨hprovider, hunset⟩)
    · obtain ⟨-, hfault⟩ := textOf_eq_error_iff.mp ((misfit_address_iff rfl).mp hmisfit)
      exact .inl ⟨⟨_, hgiven, hmisfit⟩, hfault⟩
    · exact .inr ⟨⟨hprovider, hunset⟩, rfl⟩
  · rintro (⟨⟨v, hgiven, hmisfit⟩, -⟩ | ⟨⟨hprovider, hunset⟩, rfl⟩)
    · exact .given hgiven hmisfit
    · exact .unset hprovider hunset

/-- The lists are taken as they are given. -/
theorem not_flaw_list (hkind : setting.kind = .list) : ¬Flaw source setting f := by
  rintro (⟨-, ⟨demand, -, hfails⟩ | hbreaks⟩ | -)
  · rw [hkind] at hfails
    cases hfails
  · rw [hkind] at hbreaks
    cases hbreaks with
    | text hkind | number hkind => simp at hkind
  · cases hkind

theorem flaw_address_iff {default : String} (hkind : setting.kind = .address)
    (hne : setting ≠ .userInfoUrl) :
    readAddress source setting default = .error f ↔ Flaw source setting f := by
  rw [readAddress_eq_error_iff hkind, flaw_iff_exists hne]

/-- Each fault of a setting is found by the check at its turn, and nothing else is. -/
theorem getElem?_checks_iff {i : Nat} :
    (checks source)[i]? = some (some f) ↔
      ∃ setting, Flaw source setting f ∧ turn setting f = i := by
  have hrefused {α : Type} {x : Except Fault α} :
      some (refusal? x) = some (some f) ↔ x = .error f := by
    rw [Option.some.injEq, refusal?_eq_some_iff]
  have htime {setting : Setting} {default : Binary64} (hkind : setting.kind = .time)
      (hdefault : default.le .zero = false) :
      some (refusal? (readPositive source setting default)) = some (some f) ↔
        Flaw source setting f :=
    hrefused.trans (readPositive_eq_error_iff hkind hdefault)
  constructor
  · intro h
    unfold checks at h
    match i with
    | 0 => exact ⟨.provider, readProvider_eq_error_iff.mp (hrefused.mp h), rfl⟩
    | 1 => exact ⟨.allowAllUsers, readAllowAll_eq_error_iff.mp (hrefused.mp h), rfl⟩
    | 2 =>
      obtain ⟨v, hgiven, hmisfit⟩ := (readAddress_eq_error_iff rfl).mp (hrefused.mp h)
      obtain ⟨-, rfl⟩ := textOf_eq_error_iff.mp ((misfit_address_iff rfl).mp hmisfit)
      exact ⟨.userInfoUrl, .given hgiven hmisfit, rfl⟩
    | 3 => exact ⟨.userOrgUrl, (flaw_address_iff rfl (by decide)).mp (hrefused.mp h), rfl⟩
    | 4 => exact ⟨.userTeamUrl, (flaw_address_iff rfl (by decide)).mp (hrefused.mp h), rfl⟩
    | 5 =>
      obtain ⟨⟨hprovider, hunset⟩, rfl⟩ := demanded_eq_error_iff.mp (hrefused.mp h)
      exact ⟨.userInfoUrl, .unset hprovider hunset, rfl⟩
    | 6 => exact ⟨.httpTimeout, (htime rfl (by decide +kernel)).mp h, rfl⟩
    | 7 => exact ⟨.probeTimeout, (htime rfl (by decide +kernel)).mp h, rfl⟩
    | 8 => exact ⟨.probeBackoffCap, (htime rfl (by decide +kernel)).mp h, rfl⟩
    | 9 => exact ⟨.probeBackoff, readBackoff_eq_error_iff.mp (hrefused.mp h), rfl⟩
    | 10 =>
      exact ⟨.probeMaxRetries, (readCount_eq_error_iff rfl (by decide)).mp (hrefused.mp h), rfl⟩
    | 11 =>
      exact ⟨.probeConcurrency, (readCount_eq_error_iff rfl (by decide)).mp (hrefused.mp h), rfl⟩
    | _ + 12 => cases h
  · rintro ⟨setting, hflaw, rfl⟩
    cases setting with
    | provider => exact hrefused.mpr (readProvider_eq_error_iff.mpr hflaw)
    | allowAllUsers => exact hrefused.mpr (readAllowAll_eq_error_iff.mpr hflaw)
    | whitelist | domains | teamWhitelist => exact absurd hflaw (not_flaw_list rfl)
    | userInfoUrl =>
      rcases (flaw_userInfoUrl_iff defaults.userInfoUrl).mp hflaw with ⟨hread, rfl⟩ | hdemanded
      · exact hrefused.mpr hread
      · obtain ⟨-, rfl⟩ := demanded_eq_error_iff.mp hdemanded
        exact hrefused.mpr hdemanded
    | userOrgUrl | userTeamUrl =>
      exact hrefused.mpr ((flaw_address_iff rfl (by decide)).mpr hflaw)
    | httpTimeout | probeTimeout | probeBackoffCap =>
      exact (htime rfl (by decide +kernel)).mpr hflaw
    | probeBackoff => exact hrefused.mpr (readBackoff_eq_error_iff.mpr hflaw)
    | probeMaxRetries | probeConcurrency =>
      exact hrefused.mpr ((readCount_eq_error_iff rfl (by decide)).mpr hflaw)

/-- A configuration is refused because of the setting at fault that is checked first. -/
theorem normalize_eq_error_iff :
    normalize source = .error f ↔
      ∃ setting, Flaw source setting f ∧
        ∀ other g, Flaw source other g → turn setting f ≤ turn other g := by
  rw [← refusal?_eq_some_iff, refusal?_normalize, findSome?_id_eq_some_iff]
  simp only [getElem?_checks_iff]
  constructor
  · rintro ⟨i, ⟨setting, hflaw, rfl⟩, hfirst⟩
    exact ⟨setting, hflaw, fun other g hother ↦ hfirst _ g ⟨other, hother, rfl⟩⟩
  · rintro ⟨setting, hflaw, hfirst⟩
    refine ⟨_, ⟨setting, hflaw, rfl⟩, ?_⟩
    rintro j g ⟨other, hother, rfl⟩
    exact hfirst other g hother

theorem not_flaw_of_normalize {c : Configuration} (h : normalize source = .ok c) :
    ¬Flaw source setting f := by
  intro hflaw
  have hnone : (checks source).findSome? id = none := by
    rw [← refusal?_normalize, h]
    rfl
  have hcheck := getElem?_checks_iff.mpr ⟨setting, hflaw, rfl⟩
  cases List.findSome?_eq_none_iff.mp hnone _ (List.mem_of_getElem? hcheck)

/-! ### Names -/

/-- The message holds the name of a setting as operators write it. -/
def Names (f : Fault) (setting : Setting) : Prop :=
  ("GATEPASS_" ++ setting.key).toList <:+: f.message.toList

theorem names_badSetting (setting : Setting) (demand : Demand) :
    Names (.badSetting setting demand) setting := by
  have hmessage : (Fault.badSetting setting demand).message =
      "GATEPASS_" ++ setting.key ++ " " ++ demand.text := rfl
  unfold Names
  rw [hmessage]
  simp only [String.toList_append]
  exact ⟨[], " ".toList ++ demand.text.toList, by simp⟩

/-- What is said of a conversion that breaks off holds no name of a setting. -/
theorem Breaks.not_names (h : Breaks kind v f) (setting : Setting) : ¬Names f setting := by
  have hletter : 'G' ∉ f.message.toList := by
    cases h with
    | text => decide +kernel
    | number => decide +kernel
    | integer => decide +kernel
  intro hnames
  refine hletter (hnames.subset ?_)
  rw [String.toList_append]
  exact List.mem_append_left _ (by decide)

/-- A configuration is accepted if no setting is at fault. Otherwise it is refused because of a
setting at fault, the one that is checked first. Either the refusal names this setting, or the
conversion of its value broke off, and then no setting is named. -/
theorem normalize_names (source : Fields) :
    match normalize source with
    | .ok _ => ∀ setting f, ¬Flaw source setting f
    | .error f => ∃ setting, Flaw source setting f ∧
        (∀ other g, Flaw source other g → turn setting f ≤ turn other g) ∧
        (((∃ demand, f = .badSetting setting demand) ∧ Names f setting) ∨
          ((∃ v, source.get? setting.key = some v ∧ Breaks setting.kind v f) ∧
            ∀ other, ¬Names f other)) := by
  split
  · rename_i c h
    exact fun setting f ↦ not_flaw_of_normalize h
  · rename_i f h
    obtain ⟨setting, hflaw, hfirst⟩ := normalize_eq_error_iff.mp h
    refine ⟨setting, hflaw, hfirst, ?_⟩
    rcases hflaw with ⟨hgiven, ⟨demand, rfl, -⟩ | hbreaks⟩ | -
    · exact .inl ⟨⟨demand, rfl⟩, names_badSetting setting demand⟩
    · exact .inr ⟨⟨_, hgiven, hbreaks⟩, hbreaks.not_names⟩
    · exact .inl ⟨⟨_, rfl⟩, names_badSetting _ _⟩

/-- An infinite number of retries is refused without a word of the setting. -/
theorem normalize_infiniteRetries :
    normalize [("PROBE_MAX_RETRIES", .float (.infinite false))] = .error .infiniteInteger ∧
      ∀ setting, ¬Names .infiniteInteger setting := by
  have hrefused : refusal? (normalize [("PROBE_MAX_RETRIES", .float (.infinite false))]) =
      some .infiniteInteger := by
    decide +kernel
  exact ⟨refusal?_eq_some_iff.mp hrefused, (@Breaks.integer 0 false).not_names⟩

end Admission.Configuration
