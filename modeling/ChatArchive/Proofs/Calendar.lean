import ChatArchive.Time.Timestamp

/-!
# Every day has one date, and it exists

`Date.ofDays` estimates the year of a day by the mean length of a year and puts
the estimate right by at most one, then walks through the months. Both steps
undo `Date.toDays`: the corrected year is the one whose days bracket the day,
because the estimate is less than a year off at either end, and the walk stops
in the month in which the remaining days fit. What comes out is a date that
exists and counts back to the same day, for every day before or after 1970.

The last section turns the range of seconds that a timestamp may hold into the
range of years that its date may have.
-/

namespace ChatArchive.Time

/-! ## Years -/

/-- A year is as long as its months together. -/
theorem daysBeforeYear_succ (y : Int) :
    daysBeforeYear (y + 1)
      = daysBeforeYear y + daysOf (monthLengths (isLeapYear y)) := by
  have hleap : isLeapYear y = true ↔ y % 4 = 0 ∧ (y % 100 ≠ 0 ∨ y % 400 = 0) := by
    simp [isLeapYear]
  unfold daysBeforeYear
  cases h : isLeapYear y with
  | false =>
      have hsum : daysOf (monthLengths false) = 365 := by decide
      have : ¬ (y % 4 = 0 ∧ (y % 100 ≠ 0 ∨ y % 400 = 0)) := by rw [← hleap, h]; decide
      omega
  | true =>
      have hsum : daysOf (monthLengths true) = 366 := by decide
      have := hleap.1 h
      omega

theorem daysBeforeYear_le {a b : Int} (h : a ≤ b) :
    daysBeforeYear a ≤ daysBeforeYear b := by
  unfold daysBeforeYear
  omega

namespace Date

/-- The year found for a day is the one that the day lies in. -/
theorem yearOfDay_spec (n : Int) :
    daysBeforeYear (yearOfDay n) ≤ n ∧ n < daysBeforeYear (yearOfDay n + 1) := by
  -- 146097 days make 400 years, and no year starts further than two days from
  -- where the mean length puts it: the estimate cannot miss by two years.
  have hlow : daysBeforeYear (400 * n / 146097 - 1) ≤ n := by
    unfold daysBeforeYear
    omega
  have hhigh : n < daysBeforeYear (400 * n / 146097 + 1 + 1) := by
    unfold daysBeforeYear
    omega
  simp only [yearOfDay]
  split
  · next h =>
      rw [Int.sub_add_cancel]
      exact ⟨hlow, h⟩
  · next h =>
      split
      · next h' => exact ⟨h', hhigh⟩
      · next h' => exact ⟨by omega, by omega⟩

/-! ## Months -/

/-- Walking through month lengths from month `k`: the month reached is one of
them, the day lies in it, and the days passed over add up. -/
theorem monthAndDay_spec {lengths : List Nat} {rest : Nat} (k : Nat)
    (h : rest < daysOf lengths) :
    ∃ i d, monthAndDay lengths k rest = (k + i, d + 1) ∧
      daysOf (lengths.take i) + d = rest ∧ d < lengths.getD i 0 := by
  induction lengths generalizing k rest with
  | nil => exact absurd h (Nat.not_lt_zero _)
  | cons l ls ih =>
      rw [monthAndDay]
      split
      · next hlt => exact ⟨0, rest, rfl, Nat.zero_add rest, hlt⟩
      · next hge =>
          rw [daysOf] at h
          have hrest : rest - l < daysOf ls := by omega
          obtain ⟨i, d, hmd, hsum, hd⟩ := ih (k + 1) hrest
          refine ⟨i + 1, d, ?_, ?_, hd⟩
          · rw [hmd, Nat.add_assoc, Nat.add_comm 1 i]
          · rw [List.take_succ_cons, daysOf]
            omega

/-- The month and the day of a day number, as the walk through the months of its
year finds them. -/
theorem ofDays_spec (days : Int) :
    ∃ i d : Nat, ofDays days = ⟨yearOfDay (days + epochDay), 1 + i, d + 1⟩ ∧
      daysBeforeYear (yearOfDay (days + epochDay))
        + daysOf ((monthLengths (isLeapYear (yearOfDay (days + epochDay)))).take i) + d
        = days + epochDay ∧
      d < (monthLengths (isLeapYear (yearOfDay (days + epochDay)))).getD i 0 := by
  obtain ⟨hlow, hhigh⟩ := yearOfDay_spec (days + epochDay)
  rw [daysBeforeYear_succ] at hhigh
  have hrest : (days + epochDay - daysBeforeYear (yearOfDay (days + epochDay))).toNat
      < daysOf (monthLengths (isLeapYear (yearOfDay (days + epochDay)))) := by omega
  obtain ⟨i, d, hmd, hsum, hd⟩ := monthAndDay_spec 1 hrest
  refine ⟨i, d, ?_, by omega, hd⟩
  simp only [ofDays, hmd]

/-- The date of a day counts back to the day. -/
theorem toDays_ofDays (days : Int) : (ofDays days).toDays = days := by
  obtain ⟨i, d, hdate, hsum, -⟩ := ofDays_spec days
  rw [hdate]
  simp only [toDays, Nat.add_sub_cancel_left, Nat.add_sub_cancel]
  omega

/-- The date of a day exists. -/
theorem isValid_ofDays (days : Int) : (ofDays days).IsValid := by
  obtain ⟨i, d, hdate, -, hd⟩ := ofDays_spec days
  rw [hdate]
  refine ⟨Nat.le_add_left 1 d, ?_⟩
  simp only [daysInMonth, Nat.add_sub_cancel_left]
  rw [if_neg (by omega)]
  exact hd

/-- A date that exists has a month from 1 to 12 and a day from 1 to 31. -/
theorem IsValid.bounds {date : Date} (h : date.IsValid) :
    1 ≤ date.month ∧ date.month ≤ 12 ∧ 1 ≤ date.day ∧ date.day ≤ 31 := by
  obtain ⟨hday, hlen⟩ := h
  simp only [daysInMonth] at hlen
  split at hlen
  · omega
  · next hmonth =>
      have key : ∀ leap, ∀ i, (monthLengths leap).getD i 0 ≤ 31 ∧
          (12 ≤ i → (monthLengths leap).getD i 0 = 0) := by
        intro leap i
        match i with
        | 0 | 1 | 2 | 3 | 4 | 5 | 6 | 7 | 8 | 9 | 10 | 11 =>
            cases leap <;> decide
        | i + 12 => cases leap <;> simp [monthLengths]
      obtain ⟨hmost, hnone⟩ := key (isLeapYear date.year) (date.month - 1)
      refine ⟨by omega, ?_, hday, Nat.le_trans hlen hmost⟩
      apply Decidable.byContradiction
      intro hlarge
      have := hnone (by omega)
      omega

end Date

/-! ## The years of timestamps -/

namespace Timestamp

theorem date_isValid (t : Timestamp) : t.date.IsValid :=
  Date.isValid_ofDays t.dayNumber

theorem toDays_date (t : Timestamp) : t.date.toDays = t.second / 86400 :=
  Date.toDays_ofDays t.dayNumber

/-- The day of an instant lies in its year. -/
theorem day_in_year (t : Timestamp) : daysBeforeYear t.date.year ≤ t.dayNumber + epochDay ∧
    t.dayNumber + epochDay < daysBeforeYear (t.date.year + 1) :=
  Date.yearOfDay_spec (t.dayNumber + epochDay)

/-- The dates of timestamps lie in the years from -262143 to 262142. -/
theorem year_bounds (t : Timestamp) :
    -262143 ≤ t.date.year ∧ t.date.year ≤ 262142 := by
  obtain ⟨hlow, hhigh⟩ := t.day_in_year
  have hmin := t.min_le
  have hmax := t.le_max
  have hfirst : daysBeforeYear (-262143) = -95745764 := by decide
  have hlast : daysBeforeYear 262143 = 95745765 := by decide
  simp only [dayNumber, epochDay, minSecond, maxSecond] at hlow hhigh hmin hmax
  constructor
  · apply Decidable.byContradiction
    intro hsmall
    have := daysBeforeYear_le (show t.date.year + 1 ≤ -262143 by omega)
    omega
  · apply Decidable.byContradiction
    intro hlarge
    have := daysBeforeYear_le (show 262143 ≤ t.date.year by omega)
    omega

end Timestamp

end ChatArchive.Time
