import Admission.Proofs.Number.Nearest
import Mathlib.Algebra.Order.Field.Power
import Mathlib.Tactic.FieldSimp
import Mathlib.Tactic.Linarith

/-!
# Numbers that are kept exactly

A multiple of a power of two that fits into 53 places is a number of its own (`IsDyadic`), so
rounding keeps it (`nearest_of_isDyadic`): the last place that rounding keeps lies at or below that
power of two (`lastPlace_le_of_eq`). Whole numbers below `2 ^ 53` are such multiples
(`isDyadic_natCast`). So they are read as they stand (`ofDecimal_natCast`), and sums that are such
multiples are exact (`add_of_isDyadic`). Every such multiple is one after doubling, too
(`mul_powTwo_of_isDyadic`).
-/

set_option autoImplicit false
set_option relaxedAutoImplicit false

namespace Admission.Binary64

variable {n d m : Nat} {e : Int}

/-- A multiple of a power of two that fits into the places of a number. -/
def IsDyadic (q : ℚ) : Prop :=
  ∃ (m : Nat) (e : Int), m < 2 ^ 53 ∧ -1074 ≤ e ∧ q = m * 2 ^ e

theorem twoPow_eq_zpow (e : Int) : twoPow e = (2 : ℚ) ^ e := by
  rcases lt_or_ge e 0 with he | he
  · obtain ⟨k, hk, rfl⟩ : ∃ k : Nat, 0 < k ∧ e = -k := ⟨(-e).toNat, by omega, by omega⟩
    rw [twoPow_neg_natCast hk, zpow_neg, zpow_natCast, one_div]
  · obtain ⟨k, rfl⟩ : ∃ k : Nat, e = k := ⟨e.toNat, by omega⟩
    rw [twoPow_natCast, zpow_natCast]

theorem scaleDown_pos (hd : 0 < d) : 0 < (scaleDown n d e).2 := by
  unfold scaleDown
  split
  · exact Nat.mul_pos hd (Nat.two_pow_pos _)
  · exact hd

/-- Scaling down divides by the power of two. -/
theorem scaleDown_div (n d : Nat) (e : Int) :
    ((scaleDown n d e).1 : ℚ) / (scaleDown n d e).2 = n / d / 2 ^ e := by
  unfold scaleDown
  split
  · rename_i he
    obtain ⟨k, rfl⟩ : ∃ k : Nat, e = k := ⟨e.toNat, by omega⟩
    show (n : ℚ) / ((d * 2 ^ k : Nat) : ℚ) = n / d / 2 ^ (k : Int)
    push_cast
    rw [zpow_natCast, div_div]
  · rename_i he
    obtain ⟨k, rfl⟩ : ∃ k : Nat, e = -k := ⟨(-e).toNat, by omega⟩
    have hplaces : (- -(k : Int)).toNat = k := by omega
    rw [hplaces]
    show ((n * 2 ^ k : Nat) : ℚ) / d = n / d / 2 ^ (-(k : Int))
    push_cast
    rw [zpow_neg, zpow_natCast, div_inv_eq_mul, mul_div_right_comm]

theorem roundHalfEven_mul (k : Nat) (hd : 0 < d) : roundHalfEven (k * d) d = k := by
  unfold roundHalfEven
  dsimp only
  rw [Nat.mul_div_cancel k hd, Nat.mul_mod_left, if_pos (by omega)]

/-- The first place of a quotient is not below that of its numerator divided by that of its
denominator. -/
theorem two_zpow_log2_le (hn : n ≠ 0) (hd : 0 < d) :
    (2 : ℚ) ^ ((n.log2 : Int) - d.log2 - 53 + 52) ≤ n / d := by
  have hnum : (2 : ℚ) ^ n.log2 ≤ n := by exact_mod_cast Nat.log2_self_le hn
  have hden : (d : ℚ) ≤ 2 ^ (d.log2 + 1) := by exact_mod_cast (Nat.lt_log2_self (n := d)).le
  have hpositive : (0 : ℚ) < d := by exact_mod_cast hd
  have hplaces : (n.log2 : Int) - d.log2 - 53 + 52 = n.log2 - (d.log2 + 1 : Nat) := by
    push_cast
    ring
  rw [hplaces, zpow_sub₀ two_ne_zero, zpow_natCast, zpow_natCast]
  exact div_le_div₀ (Nat.cast_nonneg n) hnum hpositive hden

/-- All 53 places are kept, unless the least one of all is the last. -/
theorem lastPlace_eq_or_le (hn : n ≠ 0) (hd : 0 < d) :
    lastPlace n d = -1074 ∨ (2 : ℚ) ^ (lastPlace n d + 52) ≤ n / d := by
  unfold lastPlace
  dsimp only
  split
  · rename_i hwhole
    split
    · exact .inl rfl
    · right
      have hscaled := scaleDown_div n d ((n.log2 : Int) - d.log2 - 53)
      have hpositive := scaleDown_pos (n := n) (e := (n.log2 : Int) - d.log2 - 53) hd
      generalize (n.log2 : Int) - d.log2 - 53 = e at hwhole hscaled hpositive ⊢
      have hplaces : (2 : ℚ) ^ 53 ≤ n / d / 2 ^ e := by
        rw [← hscaled, le_div_iff₀ (by exact_mod_cast hpositive)]
        exact_mod_cast hwhole
      have hsum : e + 1 + 52 = (53 : Nat) + e := by omega
      rw [hsum, zpow_add₀ two_ne_zero, zpow_natCast]
      exact (le_div_iff₀ (by positivity)).mp hplaces
  · split
    · exact .inl rfl
    · exact .inr (two_zpow_log2_le hn hd)

/-- The last place that is kept lies at or below the power of two of which the quotient is a
multiple. -/
theorem lastPlace_le_of_eq (hn : n ≠ 0) (hd : 0 < d) (hm : m < 2 ^ 53) (he : -1074 ≤ e)
    (h : (n : ℚ) / d = m * 2 ^ e) : lastPlace n d ≤ e := by
  rcases lastPlace_eq_or_le hn hd with hleast | hkept
  · rw [hleast]
    exact he
  · by_contra hgt
    have hplaces : (2 : ℚ) ^ (e + 53) ≤ 2 ^ (lastPlace n d + 52) :=
      zpow_le_zpow_right₀ one_le_two (by omega)
    have hmultiple : (m : ℚ) * 2 ^ e < 2 ^ (e + 53) := by
      have hcast : (m : ℚ) < 2 ^ 53 := by exact_mod_cast hm
      have hsum : e + 53 = (53 : Nat) + e := by omega
      rw [hsum, zpow_add₀ two_ne_zero, zpow_natCast]
      exact mul_lt_mul_of_pos_right hcast (by positivity)
    rw [h] at hkept
    exact absurd (hplaces.trans hkept) (not_le.mpr hmultiple)

/-- The number for a value that takes no rounding: the value itself, as far as the numbers go. -/
def ofExact (q : ℚ) : Binary64 :=
  if 2 ^ 1024 ≤ q then .infinite false else .finite q

/-- A quotient that fits into the places of a number is kept as it is. -/
theorem nearest_of_isDyadic (hn : n ≠ 0) (hd : 0 < d) (h : IsDyadic ((n : ℚ) / d)) :
    nearest false n d = ofExact (n / d) := by
  obtain ⟨m, e, hm, he, hq⟩ := h
  have hplace := lastPlace_le_of_eq hn hd hm he hq
  -- The quotient is a whole multiple of the last place, so there is nothing to round.
  obtain ⟨k, hk⟩ : ∃ k : Nat, e = lastPlace n d + k := ⟨(e - lastPlace n d).toNat, by omega⟩
  generalize hl : lastPlace n d = l at hk
  have hpositive := scaleDown_pos (n := n) (e := l) hd
  have hunits : (n : ℚ) / d = (m * 2 ^ k : Nat) * 2 ^ l := by
    rw [hq, hk, zpow_add₀ two_ne_zero, zpow_natCast]
    push_cast
    ring
  have hscaled : (scaleDown n d l).1 = m * 2 ^ k * (scaleDown n d l).2 := by
    have hquotient := scaleDown_div n d l
    rw [hunits, mul_div_cancel_right₀ _ (by positivity),
      div_eq_iff (by exact_mod_cast hpositive.ne')] at hquotient
    exact_mod_cast hquotient
  have hround : roundHalfEven (scaleDown n d l).1 (scaleDown n d l).2 = m * 2 ^ k := by
    rw [hscaled, roundHalfEven_mul _ hpositive]
  have hne : m * 2 ^ k ≠ 0 := by
    intro hzero
    rw [hzero, Nat.cast_zero, zero_mul, div_eq_zero_iff] at hunits
    rcases hunits with hn' | hd'
    · exact hn (by exact_mod_cast hn')
    · exact hd.ne' (by exact_mod_cast hd')
  unfold nearest
  dsimp only
  rw [if_neg hn, hl, hround, if_neg hne, twoPow_eq_zpow, ← hunits, mkRat_two_pow, ofExact]
  rfl

theorem isDyadic_natCast (hn : n < 2 ^ 53) : IsDyadic n :=
  ⟨n, 0, hn, by omega, by simp⟩

theorem ofExact_natCast (hn : n < 2 ^ 53) : ofExact n = .finite n := by
  have hlt : (n : ℚ) < 2 ^ 53 := by exact_mod_cast hn
  have hsize : (n : ℚ) < 2 ^ 1024 := hlt.trans_le (pow_le_pow_right₀ one_le_two (by decide))
  rw [ofExact, if_neg (not_le.mpr hsize)]

/-- A whole number below `2 ^ 53` is read as itself. -/
theorem ofDecimal_natCast (hn : n < 2 ^ 53) : ofDecimal false n 0 = .finite n := by
  have hlog : n.log2 ≤ 53 := by
    rcases Nat.eq_zero_or_pos n with rfl | hpos
    · decide
    · exact ((Nat.log2_lt hpos.ne').mpr hn).le
  unfold ofDecimal
  dsimp only
  split
  · rename_i hzero
    rw [hzero]
    rfl
  · rename_i hzero
    have hmiddle : n.log2 * 30103 / 100000 ≤ 310 := by omega
    rw [if_neg (by omega), if_neg (by omega), if_pos (by omega)]
    have hdyadic : IsDyadic ((n : ℚ) / (1 : Nat)) := by
      rw [Nat.cast_one, div_one]
      exact isDyadic_natCast hn
    show nearest false (n * 10 ^ 0) 1 = .finite n
    rw [Nat.pow_zero, Nat.mul_one, nearest_of_isDyadic hzero Nat.one_pos hdyadic, Nat.cast_one,
      div_one, ofExact_natCast hn]

theorem powTwo_natCast {k : Nat} (hk : k < 1024) : powTwo k = .finite (2 ^ k) := by
  unfold powTwo
  rw [if_neg (by omega), if_neg (by omega), twoPow_natCast]

theorem isDyadic_mul_two_pow {q : ℚ} (h : IsDyadic q) (k : Nat) : IsDyadic (q * 2 ^ k) := by
  obtain ⟨m, e, hm, he, rfl⟩ := h
  refine ⟨m, e + k, hm, by omega, ?_⟩
  rw [zpow_add₀ two_ne_zero, zpow_natCast, mul_assoc]

/-- A quotient in lowest terms that fits into the places of a number is kept as it is. -/
theorem nearest_num_den {q : ℚ} (hq : 0 ≤ q) (h : IsDyadic q) :
    nearest false q.num.natAbs q.den = ofExact q := by
  rcases hq.eq_or_lt with rfl | hpositive
  · rw [ofExact, if_neg (not_le.mpr (by positivity))]
    rfl
  have hquotient : (q.num.natAbs : ℚ) / q.den = q := by
    have hnum : ((q.num.natAbs : Int) : ℚ) = q.num := by
      rw [Int.natAbs_of_nonneg (Rat.num_nonneg.mpr hq)]
    rw [← Int.cast_natCast, hnum, Rat.num_div_den]
  have hne : q.num.natAbs ≠ 0 := by
    rw [Int.natAbs_ne_zero, Rat.num_ne_zero]
    exact hpositive.ne'
  rw [← hquotient] at h
  rw [nearest_of_isDyadic hne q.den_pos h, hquotient]

/-- A sum that is not negative and fits into the places of a number is exact. -/
theorem add_of_isDyadic {p q : ℚ} (hsum : 0 ≤ p + q) (h : IsDyadic (p + q)) :
    (finite p).add (finite q) = ofExact (p + q) := by
  show nearest (decide (p + q < 0)) (p + q).num.natAbs (p + q).den = _
  rw [decide_eq_false (not_lt.mpr hsum)]
  exact nearest_num_den hsum h

/-- Doubling a number that is not negative is exact, as far as the numbers go. -/
theorem mul_powTwo_of_isDyadic {q : ℚ} {k : Nat} (hq : 0 ≤ q) (h : IsDyadic q) (hk : k < 1024) :
    (finite q).mul (powTwo k) = ofExact (q * 2 ^ k) := by
  have hfirst : (finite q).isNegative = false := by simpa [isNegative] using hq
  have hsecond : (finite (2 ^ k)).isNegative = false := by simp [isNegative]
  rw [powTwo_natCast hk]
  show nearest ((finite q).isNegative != (finite (2 ^ k)).isNegative) (q * 2 ^ k).num.natAbs
    (q * 2 ^ k).den = _
  rw [hfirst, hsecond, bne_self_eq_false]
  exact nearest_num_den (by positivity) (isDyadic_mul_two_pow h k)

end Admission.Binary64
