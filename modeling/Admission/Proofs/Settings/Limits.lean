import Admission.Exchange.Query
import Admission.Proofs.Number.Order
import Admission.Proofs.Outcome
import Admission.Settings.Configuration

/-!
# Limits that are accepted

Every limit is refused by a comparison with its bound, and an undefined number compares with
nothing. So a limit that is accepted keeps its bound exactly if it was not given as undefined
(`normalize_limits`); numbers of retries and probes at a time are integers and always keep theirs.
Where the cap on pauses keeps its bound, every pause lies between zero and the cap
(`Query.delay_le_cap`); an undefined cap caps nothing.
-/

set_option autoImplicit false
set_option relaxedAutoImplicit false

namespace Admission

open Binary64

namespace Configuration

variable {source : Fields} {setting : Setting}

/-! ### Undefined numbers -/

/-- The value is the undefined number, or a name of it. -/
def IsUndefined : Value → Prop
  | .float x => x = .nan
  | .str s => Numeral.float? s = some .nan
  | _ => False

instance : DecidablePred IsUndefined := fun v ↦
  match v with
  | .float x => inferInstanceAs (Decidable (x = .nan))
  | .str s => inferInstanceAs (Decidable (Numeral.float? s = some .nan))
  | .null | .bool _ | .int _ | .moment _ | .list _ | .map _ => inferInstanceAs (Decidable False)

/-- Integers that are read as a floating point number are finite, so none of them is undefined. -/
theorem toFloat_eq_nan_iff {v : Value} {x : Binary64} (h : toFloat setting v = .ok x) :
    x = .nan ↔ IsUndefined v := by
  cases v with
  | null | moment _ | list _ | map _ => cases h
  | bool b =>
    have hx := Except.ok.inj h
    rw [← hx]
    simp only [IsUndefined, iff_false]
    cases b <;> decide +kernel
  | int n =>
    simp only [toFloat] at h
    split at h
    · rename_i hfinite
      cases h
      simp only [IsUndefined, iff_false]
      intro hnan
      rw [hnan] at hfinite
      cases hfinite
    · cases h
  | float y =>
    cases h
    rfl
  | str s =>
    simp only [toFloat] at h
    split at h
    · rename_i y hy
      cases h
      show x = .nan ↔ Numeral.float? s = some .nan
      rw [hy, Option.some.injEq]
    · cases h

/-- A setting that is missing or null is read as its default, which is a number. -/
theorem isUndefined_valueOr_iff {default : Binary64} (hdefault : default ≠ .nan) :
    IsUndefined (valueOr source setting (.float default)) ↔
      IsUndefined (value source setting) := by
  unfold valueOr
  split
  · rename_i hnull
    rw [hnull]
    simpa [IsUndefined] using hdefault
  · rfl

/-! ### Single limits -/

theorem readPositive_lt_iff {default x : Binary64} (hdefault : default ≠ .nan)
    (h : readPositive source setting default = .ok x) :
    zero.lt x = true ↔ ¬IsUndefined (value source setting) := by
  obtain ⟨y, hread, hkept⟩ := bind_eq_ok h
  split at hkept
  · cases hkept
  · rename_i hrefused
    cases hkept
    rw [← isUndefined_valueOr_iff hdefault, ← toFloat_eq_nan_iff hread]
    constructor
    · exact fun hlt ↦ (ne_nan_of_lt hlt).2
    · exact fun hx ↦ lt_of_not_le (by decide) hx (Bool.eq_false_iff.mpr hrefused)

theorem readBackoff_le_iff {x : Binary64} (h : readBackoff source = .ok x) :
    zero.le x = true ↔ ¬IsUndefined (value source .probeBackoff) := by
  obtain ⟨y, hread, hkept⟩ := bind_eq_ok h
  split at hkept
  · cases hkept
  · rename_i hrefused
    cases hkept
    have hdefined : IsUndefined ((source.get? Setting.probeBackoff.key).getD
        (.float defaults.probeBackoff)) ↔ IsUndefined (value source .probeBackoff) := by
      unfold value Value.ofOption
      rcases source.get? Setting.probeBackoff.key with _ | v
      · simp only [Option.getD_none, IsUndefined, iff_false]
        decide +kernel
      · rfl
    rw [← hdefined, ← toFloat_eq_nan_iff hread]
    constructor
    · rintro hle rfl
      cases hle
    · exact fun hx ↦ le_of_not_lt (by decide) hx (Bool.eq_false_iff.mpr hrefused)

/-- A count is the integer that was given, which is not below the least one allowed. -/
theorem readCount_eq {default least n : Nat} (h : readCount source setting default least = .ok n) :
    toInt setting (valueOr source setting (.int default)) = .ok n ∧ least ≤ n := by
  obtain ⟨m, hread, hkept⟩ := bind_eq_ok h
  split at hkept
  · cases hkept
  · cases hkept
    have hm : ((m.toNat : Nat) : Int) = m := by omega
    exact ⟨by rw [hm]; exact hread, by omega⟩

/-! ### All settings -/

/-- How the settings of a configuration were read, each on its own. -/
structure IsReadFrom (source : Fields) (c : Configuration) : Prop where
  provider : readProvider source = .ok c.provider
  allowAllUsers : readAllowAll source = .ok c.allowAllUsers
  whitelist : c.whitelist = value source .whitelist
  domains : c.domains = value source .domains
  teamWhitelist : c.teamWhitelist = value source .teamWhitelist
  userInfoUrl : readAddress source .userInfoUrl defaults.userInfoUrl = .ok c.userInfoUrl
  userOrgUrl : readAddress source .userOrgUrl defaults.userOrgUrl = .ok c.userOrgUrl
  userTeamUrl : readAddress source .userTeamUrl defaults.userTeamUrl = .ok c.userTeamUrl
  isSet_userInfoUrl : c.provider = .oidc → (value source .userInfoUrl).isSet = true
  httpTimeout : readPositive source .httpTimeout defaults.httpTimeout = .ok c.httpTimeout
  probeTimeout : readPositive source .probeTimeout defaults.probeTimeout = .ok c.probeTimeout
  probeBackoffCap :
    readPositive source .probeBackoffCap defaults.probeBackoffCap = .ok c.probeBackoffCap
  probeBackoff : readBackoff source = .ok c.probeBackoff
  probeMaxRetries :
    readCount source .probeMaxRetries defaults.probeMaxRetries 0 = .ok c.probeMaxRetries
  probeConcurrency :
    readCount source .probeConcurrency defaults.probeConcurrency 1 = .ok c.probeConcurrency

theorem isReadFrom_of_normalize {c : Configuration} (h : normalize source = .ok c) :
    IsReadFrom source c := by
  obtain ⟨provider, hprovider, h⟩ := bind_eq_ok h
  obtain ⟨allowAllUsers, hallowAllUsers, h⟩ := bind_eq_ok h
  obtain ⟨userInfoUrl, huserInfoUrl, h⟩ := bind_eq_ok h
  obtain ⟨userOrgUrl, huserOrgUrl, h⟩ := bind_eq_ok h
  obtain ⟨userTeamUrl, huserTeamUrl, h⟩ := bind_eq_ok h
  split at h
  · cases h
  · rename_i hset
    obtain ⟨httpTimeout, hhttpTimeout, h⟩ := bind_eq_ok h
    obtain ⟨probeTimeout, hprobeTimeout, h⟩ := bind_eq_ok h
    obtain ⟨probeBackoffCap, hprobeBackoffCap, h⟩ := bind_eq_ok h
    obtain ⟨probeBackoff, hprobeBackoff, h⟩ := bind_eq_ok h
    obtain ⟨probeMaxRetries, hprobeMaxRetries, h⟩ := bind_eq_ok h
    obtain ⟨probeConcurrency, hprobeConcurrency, h⟩ := bind_eq_ok h
    cases h
    refine ⟨hprovider, hallowAllUsers, rfl, rfl, rfl, huserInfoUrl, huserOrgUrl, huserTeamUrl, ?_,
      hhttpTimeout, hprobeTimeout, hprobeBackoffCap, hprobeBackoff, hprobeMaxRetries,
      hprobeConcurrency⟩
    simpa using hset

end Configuration

/-! ### Pauses -/

/-- A pause lies between zero and the cap, if the cap is positive. -/
theorem Query.delay_le_cap {backoff cap seconds : Binary64} {attempt : Int}
    {retryAfter : Option String} (hcap : zero.lt cap = true)
    (h : Query.delay backoff cap attempt retryAfter = .ok seconds) :
    zero.le seconds = true ∧ seconds.le cap = true := by
  have hdefined := (ne_nan_of_lt hcap).2
  unfold Query.delay at h
  split at h
  · cases h
  · have hseconds := Except.ok.inj h
    generalize (Query.namedSeconds? retryAfter).getD (backoff.mul (powTwo attempt)) = wanted
      at hseconds
    unfold Binary64.max at hseconds
    split at hseconds
    · rename_i hpositive
      rw [hseconds] at hpositive
      refine ⟨le_of_lt hpositive, ?_⟩
      unfold Binary64.min at hseconds
      split at hseconds
      · rw [← hseconds]
        exact le_refl hdefined
      · rename_i hbelow
        subst hseconds
        exact le_of_not_lt (ne_nan_of_lt hpositive).2 hdefined (Bool.eq_false_iff.mpr hbelow)
    · rw [← hseconds]
      exact ⟨le_refl (by decide), le_of_lt hcap⟩

namespace Configuration

/-- A time in an accepted configuration is greater than zero, and the first pause at least zero,
unless it was given as the undefined number. The numbers of retries and of probes at a time are the
integers that were given, the second of them at least one. If the cap on pauses is greater than
zero, every pause lies between zero and the cap. -/
theorem normalize_limits {source : Fields} {c : Configuration} (h : normalize source = .ok c) :
    (zero.lt c.httpTimeout = true ↔ ¬IsUndefined (value source .httpTimeout)) ∧
      (zero.lt c.probeTimeout = true ↔ ¬IsUndefined (value source .probeTimeout)) ∧
      (zero.lt c.probeBackoffCap = true ↔ ¬IsUndefined (value source .probeBackoffCap)) ∧
      (zero.le c.probeBackoff = true ↔ ¬IsUndefined (value source .probeBackoff)) ∧
      toInt .probeMaxRetries (valueOr source .probeMaxRetries (.int defaults.probeMaxRetries)) =
        .ok c.probeMaxRetries ∧
      toInt .probeConcurrency
          (valueOr source .probeConcurrency (.int defaults.probeConcurrency)) =
        .ok c.probeConcurrency ∧
      1 ≤ c.probeConcurrency ∧
      (zero.lt c.probeBackoffCap = true → ∀ attempt retryAfter seconds,
        Query.delayFor c.providerSettings attempt retryAfter = .ok seconds →
          zero.le seconds = true ∧ seconds.le c.probeBackoffCap = true) := by
  have hread := isReadFrom_of_normalize h
  have hretries := readCount_eq hread.probeMaxRetries
  have hconcurrency := readCount_eq hread.probeConcurrency
  refine ⟨readPositive_lt_iff ?_ hread.httpTimeout, readPositive_lt_iff ?_ hread.probeTimeout,
    readPositive_lt_iff ?_ hread.probeBackoffCap, readBackoff_le_iff hread.probeBackoff,
    hretries.1, hconcurrency.1, hconcurrency.2, ?_⟩
  · decide +kernel
  · decide +kernel
  · decide +kernel
  · intro hcap attempt retryAfter seconds hseconds
    exact Query.delay_le_cap hcap hseconds

/-- Texts, truth values and integers are accepted, and the limits keep their bounds. -/
theorem normalize_limits_given :
    ∃ c, normalize [("PROBE_TIMEOUT", .str " 1e-3 "), ("PROBE_BACKOFF", .int 0),
        ("PROBE_MAX_RETRIES", .float .negativeZero), ("PROBE_CONCURRENCY", .bool true)] = .ok c ∧
      zero.lt c.probeTimeout = true ∧ zero.le c.probeBackoff = true ∧ c.probeMaxRetries = 0 ∧
      1 ≤ c.probeConcurrency := by
  have hcounts : (normalize [("PROBE_TIMEOUT", .str " 1e-3 "), ("PROBE_BACKOFF", .int 0),
      ("PROBE_MAX_RETRIES", .float .negativeZero),
      ("PROBE_CONCURRENCY", .bool true)]).toOption.map (·.probeMaxRetries) = some 0 := by
    decide +kernel
  obtain ⟨c, hc, hretries⟩ := Option.map_eq_some_iff.mp hcounts
  have haccepted := eq_ok_of_toOption hc
  obtain ⟨-, htimeout, -, hbackoff, -, -, hconcurrency, -⟩ := normalize_limits haccepted
  refine ⟨c, haccepted, htimeout.mpr ?_, hbackoff.mpr ?_, hretries, hconcurrency⟩
  · decide +kernel
  · decide +kernel

/-- An undefined number is accepted as a time, though it is not greater than zero. An undefined cap
lets a pause last as long as the provider asks. -/
theorem normalize_undefined :
    ∃ c, normalize [("PROBE_TIMEOUT", .str "nan"), ("PROBE_BACKOFF_CAP", .str "nan")] = .ok c ∧
      zero.lt c.probeTimeout = false ∧ zero.lt c.probeBackoffCap = false ∧
      Query.delayFor c.providerSettings 0 (some "86400") = .ok (.finite 86400) := by
  have hvalues : (normalize [("PROBE_TIMEOUT", .str "nan"),
      ("PROBE_BACKOFF_CAP", .str "nan")]).toOption.map (fun c ↦
        (c.probeTimeout, c.probeBackoffCap, Query.delayFor c.providerSettings 0 (some "86400"))) =
      some (.nan, .nan, .ok (.finite 86400)) := by
    decide +kernel
  obtain ⟨c, hc, hlimits⟩ := Option.map_eq_some_iff.mp hvalues
  obtain ⟨htimeout, hcap, hpause⟩ : c.probeTimeout = .nan ∧ c.probeBackoffCap = .nan ∧
      Query.delayFor c.providerSettings 0 (some "86400") = .ok (.finite 86400) := by
    simpa using hlimits
  refine ⟨c, eq_ok_of_toOption hc, ?_, ?_, hpause⟩
  · rw [htimeout]
    rfl
  · rw [hcap]
    rfl

end Configuration

end Admission
