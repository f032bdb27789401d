import Admission.Number.Binary64
import Mathlib.Algebra.Order.Field.Basic
import Mathlib.Algebra.Order.Field.Rat
import Mathlib.Tactic.Positivity
import Mathlib.Tactic.Ring

/-!
# Quotients that have a nearest number

Rounding goes up by less than one unit in the last place that is kept, and this place is never above
the first place of the numerator. So the quotient of a numerator below `2 ^ 1022` is rounded to a
finite number (`isFinite_nearest`, `isFinite_ofRat_mkRat`).
-/

set_option autoImplicit false
set_option relaxedAutoImplicit false

namespace Admission.Binary64

variable {n d : Nat}

theorem roundHalfEven_le (n d : Nat) : roundHalfEven n d ≤ n / d + 1 := by
  unfold roundHalfEven
  dsimp only
  split
  · omega
  · split
    · omega
    · have hparity := Nat.mod_lt (n / d) (by decide : 0 < 2)
      omega

theorem mkRat_two_pow (k : Nat) : mkRat (Int.pow 2 k) 1 = 2 ^ k := by
  rw [Rat.mkRat_eq_div]
  show (((2 : Int) ^ k : Int) : Rat) / ((1 : Nat) : Rat) = 2 ^ k
  push_cast
  exact div_one _

theorem twoPow_natCast (k : Nat) : twoPow k = 2 ^ k := by
  unfold twoPow
  rw [if_pos (Int.natCast_nonneg k), Int.toNat_natCast, mkRat_two_pow]

theorem twoPow_neg_natCast {k : Nat} (hk : 0 < k) : twoPow (-k) = 1 / 2 ^ k := by
  have hnegative : ¬(0 : Int) ≤ -k := by omega
  have hplaces : (- -(k : Int)).toNat = k := by omega
  unfold twoPow
  rw [if_neg hnegative, hplaces, Rat.mkRat_eq_div]
  show ((1 : Int) : Rat) / ((2 ^ k : Nat) : Rat) = 1 / 2 ^ k
  push_cast
  rfl

/-- The last place that is kept is not above the first place of the numerator. -/
theorem lastPlace_le (n d : Nat) : lastPlace n d ≤ n.log2 := by
  unfold lastPlace
  dsimp only
  split <;> split <;> omega

/-- The rounded quotient, as a multiple of a place that is not above the numerator's first. -/
theorem roundHalfEven_mul_twoPow_le {e : Int} (hn : n ≠ 0) (he : e ≤ n.log2) :
    (roundHalfEven (scaleDown n d e).1 (scaleDown n d e).2 : Rat) * twoPow e ≤ 2 * n := by
  have hone : 1 ≤ n := Nat.one_le_iff_ne_zero.mpr hn
  obtain ⟨k, rfl⟩ | ⟨k, hk, rfl⟩ : (∃ k : Nat, e = k) ∨ ∃ k : Nat, 0 < k ∧ e = -k := by
    rcases lt_or_ge e 0 with he | he
    · exact .inr ⟨(-e).toNat, by omega, by omega⟩
    · exact .inl ⟨e.toNat, by omega⟩
  · have hscale : scaleDown n d k = (n, d * 2 ^ k) := by
      unfold scaleDown
      rw [if_pos (Int.natCast_nonneg k)]
      rfl
    have hpow : 2 ^ k ≤ n :=
      (Nat.pow_le_pow_right (by decide) (by omega)).trans (Nat.log2_self_le hn)
    have hrounded : roundHalfEven n (d * 2 ^ k) * 2 ^ k ≤ 2 * n := by
      calc
        roundHalfEven n (d * 2 ^ k) * 2 ^ k ≤ (n / (d * 2 ^ k) + 1) * 2 ^ k :=
          Nat.mul_le_mul_right _ (roundHalfEven_le _ _)
        _ = n / d / 2 ^ k * 2 ^ k + 2 ^ k := by rw [Nat.div_div_eq_div_mul, Nat.add_one_mul]
        _ ≤ n + n :=
          Nat.add_le_add ((Nat.div_mul_le_self _ _).trans (Nat.div_le_self _ _)) hpow
        _ = 2 * n := (Nat.two_mul n).symm
    rw [hscale, twoPow_natCast]
    exact_mod_cast hrounded
  · have hscale : scaleDown n d (-k) = (n * 2 ^ k, d) := by
      have hnegative : ¬(0 : Int) ≤ -k := by omega
      have hplaces : (- -(k : Int)).toNat = k := by omega
      unfold scaleDown
      rw [if_neg hnegative, hplaces]
      rfl
    have hrounded : roundHalfEven (n * 2 ^ k) d ≤ 2 * n * 2 ^ k := by
      have hpow : 1 ≤ n * 2 ^ k := Nat.mul_pos hone (Nat.two_pow_pos k)
      calc
        roundHalfEven (n * 2 ^ k) d ≤ n * 2 ^ k / d + 1 := roundHalfEven_le _ _
        _ ≤ n * 2 ^ k + n * 2 ^ k := Nat.add_le_add (Nat.div_le_self _ _) hpow
        _ = 2 * n * 2 ^ k := by ring
    rw [hscale, twoPow_neg_natCast hk, mul_one_div, div_le_iff₀ (by positivity)]
    exact_mod_cast hrounded

theorem isFinite_nearest {negative : Bool} (hn : n < 2 ^ 1022) :
    (nearest negative n d).isFinite = true := by
  unfold nearest
  dsimp only
  split
  · cases negative <;> rfl
  · rename_i hzero
    split
    · cases negative <;> rfl
    · have hvalue := roundHalfEven_mul_twoPow_le (d := d) hzero (lastPlace_le n d)
      have hbound : (2 * n : Rat) < 2 ^ 1024 := by
        have hdouble : 2 * n < 2 ^ 1024 := by omega
        exact_mod_cast hdouble
      rw [if_neg]
      · rfl
      · rw [mkRat_two_pow]
        exact not_le.mpr (hvalue.trans_lt hbound)

theorem isFinite_ofRat_mkRat {m : Int} (hd : d ≠ 0) (hm : m.natAbs < 2 ^ 1022) :
    (ofRat (mkRat m d)).isFinite = true := by
  have hdvd : (mkRat m d).num ∣ m := by
    rw [Rat.mkRat_eq_divInt]
    exact Rat.num_dvd m (Int.natCast_ne_zero.mpr hd)
  unfold ofRat
  refine isFinite_nearest (lt_of_le_of_lt ?_ hm)
  rcases eq_or_ne m 0 with rfl | hne
  · rw [Rat.zero_mkRat]
    rfl
  · exact Nat.le_of_dvd (Int.natAbs_pos.mpr hne) (Int.natAbs_dvd_natAbs.mpr hdvd)

end Admission.Binary64
