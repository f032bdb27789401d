import Admission.Proofs.Exchange.Attempts
import Admission.Proofs.Number.Exact
import Admission.Proofs.Profile.Readings
import Admission.Proofs.Settings.Limits

/-!
# Delays between attempts

After an attempt a pause is asked for: in digits by the provider, or else by the settings, as the
first pause doubled with every attempt (`Asks`). Both are numbers that are not negative, and short
of the limits of the numbers they are exact. The pause that is made is the lesser one of that and
the cap (`delay_isCapped`). But the power of two is computed in any case, which fails from the
attempt with the number 1024 on, and an undefined number is the lesser of nothing. Otherwise the
delays of an accepted configuration are as they should be (`normalize_delays`).
-/

set_option autoImplicit false
set_option relaxedAutoImplicit false

namespace Admission

open Binary64 Profile

namespace Binary64

/-! ### Numbers that are not negative -/

theorem zero_le_finite_iff {q : Rat} : zero.le (finite q) = true ↔ 0 ≤ q := by
  show (!decide (q < 0)) = true ↔ 0 ≤ q
  simp

theorem zero_le_nearest (n d : Nat) : zero.le (nearest false n d) = true := by
  unfold nearest
  dsimp only
  split
  · decide
  · split
    · decide
    · split
      · rfl
      · rw [if_neg Bool.false_ne_true, zero_le_finite_iff, twoPow_eq_zpow]
        positivity

theorem zero_le_ofDecimal (n : Nat) (e : Int) : zero.le (ofDecimal false n e) = true := by
  unfold ofDecimal
  dsimp only
  split
  · decide
  · split
    · rfl
    · split
      · decide
      · split
        · exact zero_le_nearest _ _
        · exact zero_le_nearest _ _

/-- Doubling a number that is not negative gives such a number. -/
theorem zero_le_mul_powTwo {x : Binary64} {k : Nat} (hx : zero.le x = true) (hk : k < 1024) :
    zero.le (x.mul (powTwo k)) = true := by
  have hpow : (0 : ℚ) < 2 ^ k := by positivity
  have hsign : (finite (2 ^ k)).isNegative = false := by simp [isNegative]
  rw [powTwo_natCast hk]
  cases x with
  | nan => cases hx
  | finite q =>
    have hq : (finite q).isNegative = false := by
      simpa [isNegative] using zero_le_finite_iff.mp hx
    show zero.le (nearest ((finite q).isNegative != (finite (2 ^ k)).isNegative) _ _) = true
    rw [hq, hsign]
    exact zero_le_nearest _ _
  | negativeZero =>
    show zero.le (nearest (true != (finite (2 ^ k)).isNegative) ((0 : ℚ) * 2 ^ k).num.natAbs _) =
      true
    rw [hsign, zero_mul]
    rfl
  | infinite negative =>
    cases negative with
    | true => cases hx
    | false =>
      have hne : (finite (2 ^ k)).toRat? ≠ some 0 := fun h ↦ hpow.ne' (Option.some.inj h)
      show zero.le (if (finite (2 ^ k)).toRat? = some 0 then nan
        else infinite (false != (finite (2 ^ k)).isNegative)) = true
      rw [if_neg hne, hsign]
      rfl

end Binary64

namespace Query

variable {settings : ProviderSettings} {attempt : Nat} {retryAfter : Option String}
  {asked : Binary64}

/-! ### What is asked for -/

/-- The pause that is asked for after an attempt: what the provider names in digits, and otherwise
the first pause, doubled with every attempt. -/
inductive Asks (settings : ProviderSettings) (attempt : Nat) (retryAfter : Option String) :
    Binary64 → Prop
  | named {digits : List Char} (h : IsDigitRow (retryAfter.getD "") digits) :
      Asks settings attempt retryAfter (.ofDecimal false (Numeral.ofDigits digits) 0)
  | doubled (h : ∀ digits, ¬IsDigitRow (retryAfter.getD "") digits) :
      Asks settings attempt retryAfter (settings.probeBackoff.mul (.powTwo attempt))

theorem namedSeconds?_of_isDigitRow {digits : List Char}
    (h : IsDigitRow (retryAfter.getD "") digits) :
    namedSeconds? retryAfter = some (.ofDecimal false (Numeral.ofDigits digits) 0) := by
  obtain ⟨rfl, hne, hdigits⟩ := h
  unfold namedSeconds?
  dsimp only
  rw [if_neg]
  simp [hne, List.all_eq_true.mpr hdigits]

theorem namedSeconds?_of_forall_not (h : ∀ digits, ¬IsDigitRow (retryAfter.getD "") digits) :
    namedSeconds? retryAfter = none := by
  unfold namedSeconds?
  dsimp only
  rw [if_pos]
  by_contra hrow
  exact h _ ⟨rfl, by simpa using hrow⟩

/-- What is asked for is cut off at the cap, and raised to zero. -/
theorem delayFor_of_asks (hattempt : attempt < 1024) (h : Asks settings attempt retryAfter asked) :
    delayFor settings attempt retryAfter = .ok (zero.max (asked.min settings.probeBackoffCap)) := by
  unfold delayFor delay
  rw [if_neg (by omega)]
  cases h with
  | named h =>
    rw [namedSeconds?_of_isDigitRow h]
    rfl
  | doubled h =>
    rw [namedSeconds?_of_forall_not h]
    rfl

theorem exists_asks (settings : ProviderSettings) (attempt : Nat) (retryAfter : Option String) :
    ∃ asked, Asks settings attempt retryAfter asked := by
  by_cases h : ∃ digits, IsDigitRow (retryAfter.getD "") digits
  · obtain ⟨digits, hrow⟩ := h
    exact ⟨_, .named hrow⟩
  · exact ⟨_, .doubled (not_exists.mp h)⟩

/-- What is asked for is not negative, unless the first pause is. -/
theorem Asks.zero_le (h : Asks settings attempt retryAfter asked) (hattempt : attempt < 1024)
    (hfirst : (∃ digits, IsDigitRow (retryAfter.getD "") digits) ∨
      zero.le settings.probeBackoff = true) : zero.le asked = true := by
  cases h with
  | named => exact zero_le_ofDecimal _ 0
  | doubled hnone =>
    rcases hfirst with ⟨digits, hrow⟩ | hbackoff
    · exact absurd hrow (hnone digits)
    · exact zero_le_mul_powTwo hbackoff hattempt

/-- An undefined first pause stays undefined when it is doubled. -/
theorem Asks.backoff_ne_nan (h : Asks settings attempt retryAfter asked) (hasked : asked ≠ nan)
    (hnone : ∀ digits, ¬IsDigitRow (retryAfter.getD "") digits) :
    settings.probeBackoff ≠ nan := by
  cases h with
  | named hrow => exact absurd hrow (hnone _)
  | doubled =>
    intro hbackoff
    rw [hbackoff] at hasked
    exact hasked rfl

/-- Digits for a number below `2 ^ 53` ask for this number of seconds. -/
theorem asks_natCast {digits : List Char} (h : IsDigitRow (retryAfter.getD "") digits)
    (hsize : Numeral.ofDigits digits < 2 ^ 53) :
    Asks settings attempt retryAfter (.finite (Numeral.ofDigits digits)) := by
  rw [← ofDecimal_natCast hsize]
  exact .named h

/-- Doubling is exact, as far as the numbers go. -/
theorem asks_doubled {q : ℚ} (hnone : ∀ digits, ¬IsDigitRow (retryAfter.getD "") digits)
    (hbackoff : settings.probeBackoff = .finite q) (hq : 0 ≤ q) (hdyadic : IsDyadic q)
    (hattempt : attempt < 1024) :
    Asks settings attempt retryAfter (ofExact (q * 2 ^ attempt)) := by
  rw [← mul_powTwo_of_isDyadic hq hdyadic hattempt, ← hbackoff]
  exact .doubled hnone

/-! ### What is granted -/

/-- A pause between zero and the cap: the lesser one of the cap and what is asked for. -/
structure IsCapped (settings : ProviderSettings) (attempt : Nat) (retryAfter : Option String)
    (seconds : Binary64) : Prop where
  zero_le : zero.le seconds = true
  le_cap : seconds.le settings.probeBackoffCap = true
  isLesser : ∀ asked, Asks settings attempt retryAfter asked →
    IsLesser asked settings.probeBackoffCap seconds

theorem Asks.unique {other : Binary64} (h : Asks settings attempt retryAfter asked)
    (h' : Asks settings attempt retryAfter other) : asked = other := by
  cases h with
  | named hrow =>
    cases h' with
    | named hrow' => rw [hrow.unique hrow']
    | doubled hnone => exact absurd hrow (hnone _)
  | doubled hnone =>
    cases h' with
    | named hrow => exact absurd hrow (hnone _)
    | doubled => rfl

/-- If neither the cap nor what is asked for is negative, the lesser one is granted. -/
theorem delay_isCapped (hasks : Asks settings attempt retryAfter asked)
    (hasked : zero.le asked = true) (hcap : zero.lt settings.probeBackoffCap = true) :
    IsCapped settings attempt retryAfter (zero.max (asked.min settings.probeBackoffCap)) := by
  have hzero : zero ≠ nan := by decide
  have hasked_ne := (ne_nan_of_le hasked).2
  have hcap_ne := (ne_nan_of_lt hcap).2
  have hmin_ne := min_ne_nan hasked_ne hcap_ne
  have hplace : place (zero.max (asked.min settings.probeBackoffCap)) =
      place asked ⊓ place settings.probeBackoffCap := by
    rw [place_max hzero hmin_ne, place_min hasked_ne hcap_ne, sup_eq_right]
    exact le_inf ((le_iff hzero hasked_ne).mp hasked) ((lt_iff hzero hcap_ne).mp hcap).le
  have hmax_ne := max_ne_nan hzero hmin_ne
  have hlesser := isLesser_of_place hasked_ne hcap_ne hmax_ne hplace
  refine ⟨?_, hlesser.2.1, fun other hother ↦ ?_⟩
  · rw [le_iff hzero hmax_ne, place_max hzero hmin_ne]
    exact le_sup_left
  · rw [← hasks.unique hother]
    exact hlesser

end Query

namespace Configuration

variable {source : Fields} {c : Configuration}

theorem zero_lt_of_readPositive {setting : Setting} {default x : Binary64}
    (h : readPositive source setting default = .ok x) (hx : x ≠ nan) : zero.lt x = true := by
  obtain ⟨y, -, hkept⟩ := bind_eq_ok h
  split at hkept
  · cases hkept
  · rename_i hrefused
    cases hkept
    exact lt_of_not_le (by decide) hx (Bool.eq_false_iff.mpr hrefused)

theorem zero_le_of_readBackoff {x : Binary64} (h : readBackoff source = .ok x) (hx : x ≠ nan) :
    zero.le x = true := by
  obtain ⟨y, -, hkept⟩ := bind_eq_ok h
  split at hkept
  · cases hkept
  · rename_i hrefused
    cases hkept
    exact le_of_not_lt (by decide) hx (Bool.eq_false_iff.mpr hrefused)

/-- In an accepted configuration the pause after an attempt is there and as it should be exactly for
the attempts before the one with the number 1024, if the cap was not given as undefined, and neither
was the first pause, unless the provider names the pause in digits. Later attempts have no pause at
all, even if the provider names one. Seconds below `2 ^ 53` are asked for exactly, and so is the
first pause doubled, as far as the numbers go. -/
theorem normalize_delays (h : normalize source = .ok c) (attempt : Nat)
    (retryAfter : Option String) :
    ((∃ seconds, Query.delayFor c.providerSettings attempt retryAfter = .ok seconds ∧
        Query.IsCapped c.providerSettings attempt retryAfter seconds) ↔
      attempt < 1024 ∧ ¬IsUndefined (value source .probeBackoffCap) ∧
        ((∃ digits, IsDigitRow (retryAfter.getD "") digits) ∨
          ¬IsUndefined (value source .probeBackoff))) ∧
      (1024 ≤ attempt →
        Query.delayFor c.providerSettings attempt retryAfter = .error .integerTooLarge) ∧
      (∀ digits, IsDigitRow (retryAfter.getD "") digits → Numeral.ofDigits digits < 2 ^ 53 →
        Query.Asks c.providerSettings attempt retryAfter (.finite (Numeral.ofDigits digits))) ∧
      ∀ q, (∀ digits, ¬IsDigitRow (retryAfter.getD "") digits) → c.probeBackoff = .finite q →
        0 ≤ q → IsDyadic q → attempt < 1024 →
          Query.Asks c.providerSettings attempt retryAfter (ofExact (q * 2 ^ attempt)) := by
  have hread := isReadFrom_of_normalize h
  have hcap_iff : zero.lt c.probeBackoffCap = true ↔
      ¬IsUndefined (value source .probeBackoffCap) :=
    readPositive_lt_iff (by decide +kernel) hread.probeBackoffCap
  have hbackoff_iff := readBackoff_le_iff hread.probeBackoff
  obtain ⟨asked, hasks⟩ := Query.exists_asks c.providerSettings attempt retryAfter
  refine ⟨⟨?_, ?_⟩, fun hlate ↦ Query.delayFor_of_le c.providerSettings hlate retryAfter,
    fun _ ↦ Query.asks_natCast,
    fun _ hnone hbackoff hq ↦ Query.asks_doubled hnone hbackoff hq⟩
  · rintro ⟨seconds, hdelay, hcapped⟩
    have hattempt : attempt < 1024 := by
      by_contra hlate
      rw [Query.delayFor_of_le c.providerSettings (Nat.not_lt.mp hlate)] at hdelay
      cases hdelay
    refine ⟨hattempt, hcap_iff.mp ?_, ?_⟩
    · exact zero_lt_of_readPositive hread.probeBackoffCap (ne_nan_of_le hcapped.le_cap).2
    · refine or_iff_not_imp_left.mpr fun hnone ↦ hbackoff_iff.mp ?_
      have hasked := (ne_nan_of_le (hcapped.isLesser asked hasks).1).2
      exact zero_le_of_readBackoff hread.probeBackoff
        (hasks.backoff_ne_nan hasked (not_exists.mp hnone))
  · rintro ⟨hattempt, hcap, hfirst⟩
    have hasked := hasks.zero_le hattempt (hfirst.imp_right hbackoff_iff.mpr)
    exact ⟨_, Query.delayFor_of_asks hattempt hasks,
      Query.delay_isCapped hasks hasked (hcap_iff.mpr hcap)⟩

/-- A pause that the settings ask for is granted, and one that the provider asks for beyond the cap
is not. -/
theorem normalize_delays_granted :
    ∃ c, normalize [("PROBE_BACKOFF", .str "0.25"), ("PROBE_BACKOFF_CAP", .int 60)] = .ok c ∧
      (∃ seconds, Query.delayFor c.providerSettings 3 none = .ok seconds ∧
        Query.IsCapped c.providerSettings 3 none seconds) ∧
      (∃ seconds, Query.delayFor c.providerSettings 3 (some " 120 ") = .ok seconds ∧
        Query.IsCapped c.providerSettings 3 (some " 120 ") seconds) ∧
      Query.delayFor c.providerSettings 3 none = .ok (.finite 2) ∧
      Query.delayFor c.providerSettings 3 (some " 120 ") = .ok (.finite 60) := by
  have hvalues : (normalize [("PROBE_BACKOFF", .str "0.25"),
      ("PROBE_BACKOFF_CAP", .int 60)]).toOption.map (fun c ↦
        (Query.delayFor c.providerSettings 3 none,
          Query.delayFor c.providerSettings 3 (some " 120 "))) =
      some (.ok (.finite 2), .ok (.finite 60)) := by
    decide +kernel
  obtain ⟨c, haccepted, hdelays⟩ := exists_eq_ok_of_map hvalues
  obtain ⟨hdoubled, hnamed⟩ := Prod.mk.inj hdelays
  have hcap : ¬IsUndefined (value [("PROBE_BACKOFF", .str "0.25"), ("PROBE_BACKOFF_CAP", .int 60)]
      .probeBackoffCap) := by
    decide +kernel
  have hbackoff : ¬IsUndefined (value [("PROBE_BACKOFF", .str "0.25"),
      ("PROBE_BACKOFF_CAP", .int 60)] .probeBackoff) := by
    decide +kernel
  exact ⟨c, haccepted,
    (normalize_delays haccepted 3 none).1.mpr ⟨by decide, hcap, .inr hbackoff⟩,
    (normalize_delays haccepted 3 (some " 120 ")).1.mpr ⟨by decide, hcap, .inr hbackoff⟩,
    hdoubled, hnamed⟩

/-- Where so many retries are accepted, the pause that the provider names cannot be made after the
attempt with the number 1024, and an undefined cap lets any pause pass. -/
theorem normalize_lateDelay :
    (∃ c, normalize [("PROBE_MAX_RETRIES", .int 1025)] = .ok c ∧ 1024 < c.probeMaxRetries ∧
      Query.delayFor c.providerSettings 1024 (some "3") = .error .integerTooLarge) ∧
    ∃ c, normalize [("PROBE_BACKOFF_CAP", .str "nan")] = .ok c ∧
      Query.delayFor c.providerSettings 0 (some "3") = .ok (.finite 3) ∧
      (finite 3).le c.probeBackoffCap = false := by
  constructor
  · have hvalues : (normalize [("PROBE_MAX_RETRIES", .int 1025)]).toOption.map (fun c ↦
          (c.probeMaxRetries, Query.delayFor c.providerSettings 1024 (some "3"))) =
        some (1025, .error .integerTooLarge) := by
      decide +kernel
    obtain ⟨c, haccepted, hdelay⟩ := exists_eq_ok_of_map hvalues
    obtain ⟨hretries, hfault⟩ := Prod.mk.inj hdelay
    exact ⟨c, haccepted, by omega, hfault⟩
  · have hvalues : (normalize [("PROBE_BACKOFF_CAP", .str "nan")]).toOption.map (fun c ↦
          (c.probeBackoffCap, Query.delayFor c.providerSettings 0 (some "3"))) =
        some (.nan, .ok (.finite 3)) := by
      decide +kernel
    obtain ⟨c, haccepted, hdelay⟩ := exists_eq_ok_of_map hvalues
    obtain ⟨hcap, hseconds⟩ := Prod.mk.inj hdelay
    refine ⟨c, haccepted, hseconds, ?_⟩
    rw [hcap]
    rfl

end Configuration

end Admission
