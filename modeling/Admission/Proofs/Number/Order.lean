import Admission.Number.Binary64
import Mathlib.Algebra.Order.Ring.Rat
import Mathlib.Order.WithBot

/-!
# The order of floating point numbers

Numbers other than the undefined one are compared by their places on the line of rationals with both
ends (`lt_iff`, `le_iff`). The undefined number has no place: it compares with nothing, so a test
that refuses what lies below some bound lets it pass. Of two other numbers the lesser one and the
greater one are the least and the greatest of their places (`place_min`, `place_max`).
-/

set_option autoImplicit false
set_option relaxedAutoImplicit false

namespace Admission.Binary64

variable {x y : Binary64}

/-- The place of a number on the line of rationals with both ends; the undefined number is put
anywhere. -/
def place : Binary64 → WithBot (WithTop ℚ)
  | finite q => ((q : WithTop ℚ) : WithBot (WithTop ℚ))
  | negativeZero => (((0 : ℚ) : WithTop ℚ) : WithBot (WithTop ℚ))
  | infinite negative => if negative then ⊥ else ⊤
  | nan => ⊥

theorem lt_iff (hx : x ≠ nan) (hy : y ≠ nan) : lt x y = true ↔ place x < place y := by
  have hfinite (q p : ℚ) : decide (q < p) = true ↔
      ((q : WithTop ℚ) : WithBot (WithTop ℚ)) < ((p : WithTop ℚ) : WithBot (WithTop ℚ)) := by
    rw [decide_eq_true_iff, WithBot.coe_lt_coe, WithTop.coe_lt_coe]
  have hbelow (q : ℚ) : ((q : WithTop ℚ) : WithBot (WithTop ℚ)) < ⊤ := by
    rw [← WithBot.coe_top, WithBot.coe_lt_coe]
    exact WithTop.coe_lt_top q
  cases x with
  | nan => exact absurd rfl hx
  | finite q =>
    cases y with
    | nan => exact absurd rfl hy
    | finite p => exact hfinite q p
    | negativeZero => exact hfinite q 0
    | infinite b =>
      cases b with
      | false => exact iff_of_true rfl (hbelow q)
      | true => exact iff_of_false nofun not_lt_bot
  | negativeZero =>
    cases y with
    | nan => exact absurd rfl hy
    | finite p => exact hfinite 0 p
    | negativeZero => exact hfinite 0 0
    | infinite b =>
      cases b with
      | false => exact iff_of_true rfl (hbelow 0)
      | true => exact iff_of_false nofun not_lt_bot
  | infinite a =>
    cases y with
    | nan => exact absurd rfl hy
    | finite p => cases a <;> simp [lt, place]
    | negativeZero => cases a <;> simp [lt, place]
    | infinite b => cases a <;> cases b <;> simp [lt, place]

theorem le_iff (hx : x ≠ nan) (hy : y ≠ nan) : le x y = true ↔ place x ≤ place y := by
  have hle : le x y = !lt y x := by
    cases x with
    | nan => exact absurd rfl hx
    | finite _ | negativeZero | infinite _ =>
      cases y with
      | nan => exact absurd rfl hy
      | finite _ | negativeZero | infinite _ => rfl
  rw [hle, Bool.not_eq_true', Bool.eq_false_iff, ne_eq, lt_iff hy hx, not_lt]

theorem ne_nan_of_lt (h : lt x y = true) : x ≠ nan ∧ y ≠ nan := by
  constructor
  · rintro rfl
    cases h
  · rintro rfl
    cases x <;> cases h

theorem le_of_lt (h : lt x y = true) : le x y = true := by
  obtain ⟨hx, hy⟩ := ne_nan_of_lt h
  exact (le_iff hx hy).mpr ((lt_iff hx hy).mp h).le

theorem le_refl (hx : x ≠ nan) : le x x = true :=
  (le_iff hx hx).mpr le_rfl

theorem le_of_not_lt (hx : x ≠ nan) (hy : y ≠ nan) (h : lt y x = false) : le x y = true := by
  rw [le_iff hx hy, ← not_lt, ← lt_iff hy hx, h]
  exact Bool.false_ne_true

theorem lt_of_not_le (hx : x ≠ nan) (hy : y ≠ nan) (h : le y x = false) : lt x y = true := by
  rw [lt_iff hx hy, ← not_le, ← le_iff hy hx, h]
  exact Bool.false_ne_true

theorem ne_nan_of_le (h : le x y = true) : x ≠ nan ∧ y ≠ nan := by
  constructor
  · rintro rfl
    cases h
  · rintro rfl
    cases x <;> cases h

/-! ### The lesser and the greater number -/

theorem min_ne_nan (hx : x ≠ nan) (hy : y ≠ nan) : x.min y ≠ nan := by
  unfold Binary64.min
  split
  · exact hy
  · exact hx

theorem max_ne_nan (hx : x ≠ nan) (hy : y ≠ nan) : x.max y ≠ nan := by
  unfold Binary64.max
  split
  · exact hy
  · exact hx

theorem place_min (hx : x ≠ nan) (hy : y ≠ nan) : place (x.min y) = place x ⊓ place y := by
  unfold Binary64.min
  split
  · rename_i hlt
    exact (inf_eq_right.mpr ((lt_iff hy hx).mp hlt).le).symm
  · rename_i hge
    have hle := le_of_not_lt hx hy (Bool.eq_false_iff.mpr hge)
    exact (inf_eq_left.mpr ((le_iff hx hy).mp hle)).symm

theorem place_max (hx : x ≠ nan) (hy : y ≠ nan) : place (x.max y) = place x ⊔ place y := by
  unfold Binary64.max
  split
  · rename_i hlt
    exact (sup_eq_right.mpr ((lt_iff hx hy).mp hlt).le).symm
  · rename_i hge
    have hle := le_of_not_lt hy hx (Bool.eq_false_iff.mpr hge)
    exact (sup_eq_left.mpr ((le_iff hy hx).mp hle)).symm

/-- A number is the lesser of two, as far as comparing tells. -/
def IsLesser (x y z : Binary64) : Prop :=
  z.le x = true ∧ z.le y = true ∧ (x.le z = true ∨ y.le z = true)

theorem isLesser_of_place {z : Binary64} (hx : x ≠ nan) (hy : y ≠ nan) (hz : z ≠ nan)
    (h : place z = place x ⊓ place y) : IsLesser x y z := by
  rw [IsLesser, le_iff hz hx, le_iff hz hy, le_iff hx hz, le_iff hy hz, h]
  refine ⟨inf_le_left, inf_le_right, ?_⟩
  rcases le_total (place x) (place y) with hle | hle
  · exact .inl (le_inf le_rfl hle)
  · exact .inr (le_inf hle le_rfl)

end Admission.Binary64
