import Admission.Proofs.Number.Nearest
import Admission.Time.Timestamp

/-!
# Timestamps within the range of floating point numbers

A timestamp names a valid date and time of day, and an offset of less than a day. So it is less than
`10 ^ 18` microseconds away from the beginning of 1970 (`natAbs_micros_lt`), and the seconds until
then have a floating point number (`isFinite_seconds?`).
-/

set_option autoImplicit false
set_option relaxedAutoImplicit false

namespace Admission

/-! ### The calendar -/

theorem Date.daysInMonth_le (year month : Nat) : daysInMonth year month ≤ 31 := by
  unfold daysInMonth
  split
  · split <;> omega
  all_goals omega

theorem Date.foldl_daysInMonth_le (year : Nat) (months : List Nat) (days : Nat) :
    months.foldl (fun days m ↦ days + daysInMonth year (m + 1)) days ≤
      days + 31 * months.length := by
  induction months generalizing days with
  | nil => simp
  | cons m months ih =>
    have hmonth := daysInMonth_le year (m + 1)
    have hrest := ih (days + daysInMonth year (m + 1))
    simp only [List.foldl_cons, List.length_cons]
    omega

theorem Date.ordinal_le {d : Date} (h : d.valid = true) : d.ordinal ≤ 3700000 := by
  obtain ⟨year, month, day⟩ := d
  simp only [valid, Bool.and_eq_true, decide_eq_true_eq] at h
  have hmonths := foldl_daysInMonth_le year (List.range (month - 1)) 0
  have hday := daysInMonth_le year month
  rw [List.length_range] at hmonths
  simp only [ordinal, daysBeforeYear, daysBeforeMonth]
  omega

theorem ClockTime.micros_lt {t : ClockTime} (h : t.valid = true) : t.micros < microsPerDay := by
  obtain ⟨hour, minute, second, micro⟩ := t
  simp only [valid, Bool.and_eq_true, decide_eq_true_eq] at h
  simp only [micros, microsPerDay]
  omega

namespace Timestamp

theorem natAbs_offsetOf_lt {negative : Bool} {t : ClockTime} (h : t.micros < microsPerDay) :
    (offsetOf negative t).natAbs < microsPerDay := by
  unfold offsetOf
  dsimp only
  split
  · decide
  · split <;> omega

theorem zonedClock?_offset {bs : List Octet} {t : ClockTime} {offset : Option Int}
    (h : zonedClock? bs = some (t, offset)) : (offset.getD 0).natAbs < microsPerDay := by
  unfold zonedClock? at h
  dsimp only at h
  split at h
  · obtain ⟨reading, -, h⟩ := Option.bind_eq_some_iff.mp h
    split at h
    · cases h
    · cases h
      decide
  · obtain ⟨reading, -, h⟩ := Option.bind_eq_some_iff.mp h
    obtain ⟨zone, -, h⟩ := Option.bind_eq_some_iff.mp h
    split at h
    · cases h
    · rename_i hkept
      cases h
      rw [Bool.or_eq_true, not_or, decide_eq_true_eq, Nat.not_le] at hkept
      rw [Option.getD_some]
      exact natAbs_offsetOf_lt hkept.2

theorem octets?_eq_some {bs : List Octet} {d : Date} {t : ClockTime} {offset : Option Int}
    (h : octets? bs = some (d, t, offset)) :
    d.valid = true ∧ t.valid = true ∧ (offset.getD 0).natAbs < microsPerDay := by
  have hkept {date : Date} {time : ClockTime} {zone : Option Int}
      (hzone : (zone.getD 0).natAbs < microsPerDay)
      (h : (if (date.valid && time.valid) = true then some (date, time, zone) else none) =
        some (d, t, offset)) :
      d.valid = true ∧ t.valid = true ∧ (offset.getD 0).natAbs < microsPerDay := by
    split at h
    · rename_i hvalid
      cases h
      rw [Bool.and_eq_true] at hvalid
      exact ⟨hvalid.1, hvalid.2, hzone⟩
    · cases h
  unfold octets? at h
  split at h
  · cases h
  · obtain ⟨place, -, h⟩ := Option.bind_eq_some_iff.mp h
    obtain ⟨date, -, h⟩ := Option.bind_eq_some_iff.mp h
    dsimp only at h
    split at h
    · have hnone : ((none : Option Int).getD 0).natAbs < microsPerDay := by decide
      exact hkept hnone h
    · obtain ⟨⟨time, zone⟩, hclock, h⟩ := Option.bind_eq_some_iff.mp h
      exact hkept (zonedClock?_offset hclock) h

theorem natAbs_micros_lt {s : String} {t : Instant} (h : read? s = some t) :
    t.micros.natAbs < 10 ^ 18 := by
  obtain ⟨⟨date, time, offset⟩, hoctets, hinstant⟩ := Option.bind_eq_some_iff.mp h
  obtain ⟨hdate, htime, hoffset⟩ := octets?_eq_some hoctets
  cases hinstant
  have hday := Date.ordinal_le hdate
  have hclock := ClockTime.micros_lt htime
  simp only [epochMicros, Date.epochDay, microsPerDay] at hclock hoffset ⊢
  omega

/-- Every timestamp has its seconds as a floating point number. -/
theorem isFinite_seconds? {s : String} {x : Binary64} (h : seconds? s = some x) :
    x.isFinite = true := by
  obtain ⟨t, ht, rfl⟩ := Option.map_eq_some_iff.mp h
  have hmicros := natAbs_micros_lt ht
  refine Binary64.isFinite_ofRat_mkRat (by decide) ?_
  omega

end Timestamp

end Admission
