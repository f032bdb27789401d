import Admission.Proofs.Settings.Refusals

/-!
# Settings that are null

Null in the place of missing settings is at fault as a flag and as a pause only
(`flaw_withNulls_iff`). So it changes what a configuration comes to exactly if it stands for the
flag or the first pause, and no other setting at fault is checked before (`normalize_withNulls`).
-/

set_option autoImplicit false
set_option relaxedAutoImplicit false

namespace Admission

theorem Setting.key_injective : Function.Injective Setting.key := by
  intro a b h
  cases a <;> cases b <;> first | rfl | exact absurd h (by decide)

namespace Configuration

variable {source : Fields} {settings : List Setting} {setting : Setting} {f : Fault}

/-- The source with null under the keys of those of the settings that are missing. -/
def withNulls (source : Fields) (settings : List Setting) : Fields :=
  source ++ settings.map fun setting ↦ (setting.key, .null)

theorem get?_withNulls :
    (withNulls source settings).get? setting.key =
      (source.get? setting.key).or (if setting ∈ settings then some .null else none) := by
  have hnulls : (settings.map fun setting ↦ (setting.key, Value.null)).lookup setting.key =
      if setting ∈ settings then some .null else none := by
    induction settings with
    | nil => rfl
    | cons other settings ih =>
      rw [List.map_cons, List.lookup_cons, ih]
      by_cases hother : setting = other
      · simp [hother]
      · have hkey : setting.key ≠ other.key := fun h ↦ hother (Setting.key_injective h)
        simp [hother, beq_false_of_ne hkey]
  unfold withNulls Fields.get?
  rw [List.lookup_append, hnulls]

theorem value_withNulls : value (withNulls source settings) setting = value source setting := by
  unfold value
  rw [get?_withNulls]
  rcases source.get? setting.key with _ | v
  · split <;> rfl
  · rfl

theorem get?_withNulls_of (h : ¬(setting ∈ settings ∧ source.get? setting.key = none)) :
    (withNulls source settings).get? setting.key = source.get? setting.key := by
  rw [get?_withNulls]
  rcases hgiven : source.get? setting.key with _ | v
  · rw [if_neg fun hmem ↦ h ⟨hmem, hgiven⟩]
    rfl
  · rfl

theorem readProvider_withNulls :
    readProvider (withNulls source settings) = readProvider source := by
  unfold readProvider valueOr
  rw [value_withNulls]

/-- What is at fault besides is null in the place of a missing flag or pause. -/
theorem flaw_withNulls_iff :
    Flaw (withNulls source settings) setting f ↔
      Flaw source setting f ∨
        (setting ∈ settings ∧ source.get? setting.key = none ∧ Misfit setting .null f) := by
  constructor
  · rintro (⟨hgiven, hmisfit⟩ | ⟨hprovider, hunset⟩)
    · by_cases hmissing : setting ∈ settings ∧ source.get? setting.key = none
      · rw [get?_withNulls, hmissing.2, if_pos hmissing.1] at hgiven
        cases hgiven
        exact .inr ⟨hmissing.1, hmissing.2, hmisfit⟩
      · rw [get?_withNulls_of hmissing] at hgiven
        exact .inl (.given hgiven hmisfit)
    · rw [readProvider_withNulls] at hprovider
      rw [value_withNulls] at hunset
      exact .inl (.unset hprovider hunset)
  · rintro ((⟨hgiven, hmisfit⟩ | ⟨hprovider, hunset⟩) | ⟨hmem, hmissing, hmisfit⟩)
    · refine .given ?_ hmisfit
      rw [get?_withNulls, hgiven]
      rfl
    · refine .unset ?_ ?_
      · rwa [readProvider_withNulls]
      · rwa [value_withNulls]
    · refine .given ?_ hmisfit
      rw [get?_withNulls, hmissing, if_pos hmem]
      rfl

/-- Where null stands for no flag and no pause, nothing changes. -/
theorem normalize_withNulls_of
    (hflag : ¬(.allowAllUsers ∈ settings ∧ source.get? Setting.allowAllUsers.key = none))
    (hpause : ¬(.probeBackoff ∈ settings ∧ source.get? Setting.probeBackoff.key = none)) :
    normalize (withNulls source settings) = normalize source := by
  have hallowAll : readAllowAll (withNulls source settings) = readAllowAll source := by
    unfold readAllowAll
    rw [get?_withNulls_of hflag]
  have hbackoff : readBackoff (withNulls source settings) = readBackoff source := by
    unfold readBackoff
    rw [get?_withNulls_of hpause]
  unfold normalize readAddress readPositive readCount valueOr
  simp only [readProvider_withNulls, hallowAll, hbackoff, value_withNulls]

/-- A demand is failed by the setting that it is made of. -/
theorem Flaw.eq_of_badSetting {other : Setting} {demand : Demand}
    (h : Flaw source setting (.badSetting other demand)) : other = setting := by
  generalize hfault : Fault.badSetting other demand = f at h
  rcases h with ⟨-, ⟨demand, rfl, -⟩ | hbreaks⟩ | -
  · exact (Fault.badSetting.inj hfault).1
  · exact absurd hfault.symm hbreaks.ne_badSetting
  · exact (Fault.badSetting.inj hfault).1

/-- Null stands for a missing flag or pause. -/
def IsMissed (source : Fields) (settings : List Setting) (setting : Setting) : Prop :=
  setting ∈ settings ∧ (setting = .allowAllUsers ∨ setting = .probeBackoff) ∧
    source.get? setting.key = none

/-- No setting at fault is checked before. -/
def IsFirst (source : Fields) (setting : Setting) : Prop :=
  ∀ other f, Flaw source other f → turn setting f < turn other f

theorem IsMissed.exists_misfit (h : IsMissed source settings setting) :
    ∃ demand, Misfit setting .null (.badSetting setting demand) := by
  obtain ⟨-, rfl | rfl, -⟩ := h
  · exact ⟨.boolean, misfit_null_iff.mpr (.inl ⟨rfl, rfl⟩)⟩
  · exact ⟨.number, misfit_null_iff.mpr (.inr ⟨rfl, rfl⟩)⟩

theorem isMissed_of_misfit (hmem : setting ∈ settings) (hmissing : source.get? setting.key = none)
    (h : Misfit setting .null f) :
    IsMissed source settings setting ∧ ∃ demand, f = .badSetting setting demand := by
  rcases misfit_null_iff.mp h with ⟨hkind, rfl⟩ | ⟨hkind, rfl⟩
  · cases setting <;> cases hkind
    exact ⟨⟨hmem, .inl rfl, hmissing⟩, _, rfl⟩
  · cases setting <;> cases hkind
    exact ⟨⟨hmem, .inr rfl, hmissing⟩, _, rfl⟩

theorem IsMissed.turn_eq (h : IsMissed source settings setting) (f g : Fault) :
    turn setting f = turn setting g := by
  obtain ⟨-, rfl | rfl, -⟩ := h <;> rfl

/-- If a fault is found before null is, then it is found as it was before. -/
theorem normalize_withNulls_of_forall
    (h : ∀ setting, IsMissed source settings setting → ¬IsFirst source setting) :
    normalize (withNulls source settings) = normalize source := by
  rcases hsource : normalize source with f | c
  · obtain ⟨setting, hflaw, hfirst⟩ := normalize_eq_error_iff.mp hsource
    refine normalize_eq_error_iff.mpr ⟨setting, flaw_withNulls_iff.mpr (.inl hflaw), ?_⟩
    intro other g hother
    rcases flaw_withNulls_iff.mp hother with hother | ⟨hmem, hmissing, hmisfit⟩
    · exact hfirst other g hother
    · have hmissed := (isMissed_of_misfit hmem hmissing hmisfit).1
      have hbefore := h other hmissed
      simp only [IsFirst, not_forall, not_lt] at hbefore
      obtain ⟨before, g', hbefore, hle⟩ := hbefore
      calc turn setting f ≤ turn before g' := hfirst before g' hbefore
        _ ≤ turn other g' := hle
        _ = turn other g := hmissed.turn_eq g' g
  · have hsound (setting : Setting) : IsFirst source setting := fun other f hother ↦
      absurd hother (not_flaw_of_normalize hsource)
    rw [← hsource]
    refine normalize_withNulls_of ?_ ?_
    · exact fun hmissing ↦ h .allowAllUsers ⟨hmissing.1, .inl rfl, hmissing.2⟩ (hsound _)
    · exact fun hmissing ↦ h .probeBackoff ⟨hmissing.1, .inr rfl, hmissing.2⟩ (hsound _)

/-- If no fault is found before null is, then the configuration is refused because of null. -/
theorem exists_of_isFirst (hmissed : IsMissed source settings setting)
    (hfirst : IsFirst source setting) :
    ∃ other demand, IsMissed source settings other ∧
      normalize (withNulls source settings) = .error (.badSetting other demand) := by
  obtain ⟨demand, hmisfit⟩ := hmissed.exists_misfit
  have hflaw : Flaw (withNulls source settings) setting (.badSetting setting demand) :=
    flaw_withNulls_iff.mpr (.inr ⟨hmissed.1, hmissed.2.2, hmisfit⟩)
  rcases hfilled : normalize (withNulls source settings) with f | c
  · obtain ⟨other, hother, hleast⟩ := normalize_eq_error_iff.mp hfilled
    rcases flaw_withNulls_iff.mp hother with hgiven | ⟨hmem, hmissing, hnull⟩
    · have hle := hleast setting _ hflaw
      have hlt := hfirst other f hgiven
      rw [hmissed.turn_eq f (.badSetting setting demand)] at hlt
      omega
    · obtain ⟨hmissed, demand, rfl⟩ := isMissed_of_misfit hmem hmissing hnull
      exact ⟨other, demand, hmissed, rfl⟩
  · exact absurd hflaw (not_flaw_of_normalize hfilled)

/-- Null in the place of missing settings does not change what a configuration comes to, unless it
stands for the flag or the first pause and no other setting at fault is checked before. Then the
configuration is refused because of such a setting. -/
theorem normalize_withNulls (source : Fields) (settings : List Setting) :
    (normalize (withNulls source settings) = normalize source ↔
      ¬∃ setting, IsMissed source settings setting ∧ IsFirst source setting) ∧
      ((∃ setting, IsMissed source settings setting ∧ IsFirst source setting) →
        ∃ setting demand, IsMissed source settings setting ∧
          normalize (withNulls source settings) = .error (.badSetting setting demand)) := by
  have hrefused (h : ∃ setting, IsMissed source settings setting ∧ IsFirst source setting) :
      ∃ setting demand, IsMissed source settings setting ∧
        normalize (withNulls source settings) = .error (.badSetting setting demand) := by
    obtain ⟨setting, hmissed, hfirst⟩ := h
    exact exists_of_isFirst hmissed hfirst
  refine ⟨⟨?_, ?_⟩, hrefused⟩
  · intro hsame hex
    obtain ⟨setting, demand, ⟨-, hkind, hmissing⟩, hfilled⟩ := hrefused hex
    rw [hsame] at hfilled
    obtain ⟨other, hflaw, -⟩ := normalize_eq_error_iff.mp hfilled
    obtain rfl := hflaw.eq_of_badSetting
    rcases hflaw with ⟨hgiven, -⟩ | -
    · rw [hmissing] at hgiven
      cases hgiven
    · simp at hkind
  · exact fun h ↦ normalize_withNulls_of_forall fun setting hmissed hfirst ↦
      h ⟨setting, hmissed, hfirst⟩

/-- Null in the place of the first pause is refused, and so it is in the place of the flag, though
both may be missing. -/
theorem normalize_null :
    (∃ c, normalize [] = .ok c) ∧
      normalize (withNulls [] [.probeBackoff]) = .error (.badSetting .probeBackoff .number) ∧
      normalize (withNulls [] [.allowAllUsers]) =
        .error (.badSetting .allowAllUsers .boolean) := by
  have haccepted : refusal? (normalize []) = none := by decide +kernel
  have hpause : refusal? (normalize (withNulls [] [.probeBackoff])) =
      some (.badSetting .probeBackoff .number) := by decide +kernel
  have hflag : refusal? (normalize (withNulls [] [.allowAllUsers])) =
      some (.badSetting .allowAllUsers .boolean) := by decide +kernel
  refine ⟨?_, refusal?_eq_some_iff.mp hpause, refusal?_eq_some_iff.mp hflag⟩
  rcases hempty : normalize [] with f | c
  · rw [hempty] at haccepted
    cases haccepted
  · exact ⟨c, rfl⟩

end Configuration

end Admission
