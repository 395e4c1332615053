import ChatArchive.Proofs.TimeText
import Mathlib.Data.String.Basic

/-!
# Column texts compare as their instants do

A column holds an instant as seven fields of fixed width with fixed separators, the most
significant first. Texts of such a layout compare as the lists of their fields do, because
digits of one width compare as the numbers that they write. And the fields of instants
compare as the instants: between dates the calendar is monotone, and within a day a leap
second has the second 60, behind all others of its minute.

All of this is about plain years. A sign in front of a year is no digit, and the texts of
other years do not line up.
-/

namespace ChatArchive

/-! ## Fields of fixed width -/

namespace Text

theorem digitChar_lt {n m : Nat} (h : n % 10 < m % 10) : digitChar n < digitChar m := by
  have key : ∀ a < 10, ∀ b < 10, a < b → Char.ofNat (48 + a) < Char.ofNat (48 + b) := by decide
  exact key _ (Nat.mod_lt n (by decide)) _ (Nat.mod_lt m (by decide)) h

/-- A difference in a part of one length decides. -/
theorem append_lt_append {as bs : List Char} (hlength : as.length = bs.length) (h : as < bs)
    (cs ds : List Char) : as ++ cs < bs ++ ds := by
  induction as generalizing bs with
  | nil =>
      rw [List.eq_nil_of_length_eq_zero hlength.symm] at h
      exact absurd h (List.not_lt_nil [])
  | cons a as ih =>
      cases bs with
      | nil => exact absurd h (List.not_lt_nil _)
      | cons b bs =>
          rw [List.cons_append, List.cons_append, List.cons_lt_cons_iff]
          rcases List.cons_lt_cons_iff.1 h with hhead | ⟨rfl, htail⟩
          · exact Or.inl hhead
          · exact Or.inr ⟨rfl, ih (Nat.succ.inj hlength) htail⟩

/-- Digits of one width compare as the numbers that they write. -/
theorem fixedDigits_lt {w n m : Nat} (hm : m < 10 ^ w) (h : n < m) :
    fixedDigits w n < fixedDigits w m := by
  induction w generalizing n m with
  | zero =>
      rw [Nat.pow_zero] at hm
      omega
  | succ w ih =>
      rw [Nat.pow_succ] at hm
      rw [fixedDigits, fixedDigits]
      by_cases hprefix : n / 10 < m / 10
      · refine append_lt_append ?_ (ih (by omega) hprefix) _ _
        rw [length_fixedDigits, length_fixedDigits]
      · have hsame : n / 10 = m / 10 := by omega
        rw [hsame]
        exact List.append_left_lt (List.cons_lt_cons_iff.2 (Or.inl (digitChar_lt (by omega))))

/-- Fields of these widths, each with a mark behind it. -/
def layout : List (Nat × Char) → List Nat → List Char
  | (width, mark) :: fields, n :: ns => fixedDigits width n ++ mark :: layout fields ns
  | _, _ => []

/-- Texts of one layout compare as the lists of their fields. -/
theorem layout_lt {fields : List (Nat × Char)} {ns ms : List Nat}
    (hlength : ns.length = ms.length) (hfit : List.Forall₂ (fun f m => m < 10 ^ f.1) fields ms)
    (h : ns < ms) : layout fields ns < layout fields ms := by
  induction hfit generalizing ns with
  | nil => exact absurd h (List.not_lt_nil _)
  | @cons f m fields ms hm hfit ih =>
      obtain ⟨width, mark⟩ := f
      cases ns with
      | nil => cases hlength
      | cons n ns =>
          rw [layout, layout]
          rcases List.cons_lt_cons_iff.1 h with hhead | ⟨rfl, htail⟩
          · refine append_lt_append ?_ (fixedDigits_lt hm hhead) _ _
            rw [length_fixedDigits, length_fixedDigits]
          · refine List.append_left_lt (List.cons_lt_cons_iff.2 (Or.inr ⟨rfl, ?_⟩))
            exact ih (Nat.succ.inj hlength) htail

end Text

namespace Time

open Text

/-! ## Dates -/

/-- A month is over before any later one begins. -/
theorem daysOf_take_add_le {lengths : List Nat} {i j : Nat} (h : i < j) :
    daysOf (lengths.take i) + lengths.getD i 0 ≤ daysOf (lengths.take j) := by
  induction lengths generalizing i j with
  | nil => simp [daysOf]
  | cons l ls ih =>
      obtain ⟨j, rfl⟩ := Nat.exists_eq_add_one_of_ne_zero (Nat.ne_zero_of_lt h)
      rw [List.take_succ_cons, daysOf]
      cases i with
      | zero =>
          rw [List.take_zero, daysOf, List.getD_cons_zero]
          omega
      | succ i =>
          have := ih (Nat.lt_of_succ_lt_succ h)
          rw [List.take_succ_cons, daysOf, List.getD_cons_succ]
          omega

namespace Date

/-- The day of a date lies in its month. -/
theorem IsValid.day_le {d : Date} (h : d.IsValid) :
    1 ≤ d.day ∧ d.day ≤ (monthLengths (isLeapYear d.year)).getD (d.month - 1) 0 := by
  obtain ⟨hday, hlength⟩ := h
  rw [daysInMonth] at hlength
  split at hlength
  · omega
  · exact ⟨hday, hlength⟩

/-- A date lies in its year. -/
theorem IsValid.in_year {d : Date} (h : d.IsValid) :
    daysBeforeYear d.year ≤ d.toDays + epochDay ∧
      d.toDays + epochDay < daysBeforeYear (d.year + 1) := by
  obtain ⟨hone, hday⟩ := h.day_le
  have hmonth : daysOf ((monthLengths (isLeapYear d.year)).take (d.month - 1))
      + (monthLengths (isLeapYear d.year)).getD (d.month - 1) 0
      ≤ daysOf ((monthLengths (isLeapYear d.year)).take (d.month - 1 + 12)) :=
    daysOf_take_add_le (by omega)
  rw [List.take_of_length_le (i := d.month - 1 + 12) (Nat.le_add_left 12 _)] at hmonth
  rw [daysBeforeYear_succ, toDays]
  omega

/-- The date of an earlier day is less in the year, the month or the day. -/
theorem lt_of_toDays_lt {a b : Date} (ha : a.IsValid) (hb : b.IsValid)
    (h : a.toDays < b.toDays) :
    a.year < b.year ∨ a.year = b.year ∧
      (a.month < b.month ∨ a.month = b.month ∧ a.day < b.day) := by
  have hyear : a.year ≤ b.year := by
    apply Decidable.byContradiction
    intro hgt
    have := daysBeforeYear_le (show b.year + 1 ≤ a.year by omega)
    have := ha.in_year.1
    have := hb.in_year.2
    omega
  rcases Int.lt_or_eq_of_le hyear with hlt | heq
  · exact Or.inl hlt
  · refine Or.inr ⟨heq, ?_⟩
    obtain ⟨hone, -⟩ := ha.day_le
    obtain ⟨-, hday⟩ := hb.day_le
    have hfirst := ha.bounds.1
    rw [toDays, toDays, heq] at h
    have hmonth : a.month ≤ b.month := by
      apply Decidable.byContradiction
      intro hgt
      have : daysOf ((monthLengths (isLeapYear b.year)).take (b.month - 1))
          + (monthLengths (isLeapYear b.year)).getD (b.month - 1) 0
          ≤ daysOf ((monthLengths (isLeapYear b.year)).take (a.month - 1)) :=
        daysOf_take_add_le (by have := hb.bounds.1; omega)
      omega
    rcases Nat.lt_or_eq_of_le hmonth with hlt | hsame
    · exact Or.inl hlt
    · rw [hsame] at h
      exact Or.inr ⟨hsame, by omega⟩

end Date

/-! ## Instants -/

namespace Timestamp

variable {t u : Timestamp}

/-- The fields of a column, the most significant first. -/
def fields (t : Timestamp) : List Nat :=
  [t.date.year.toNat, t.date.month, t.date.day, t.hour, t.minute, t.secondOfMinute, t.fraction]

/-- Their widths and what stands behind them. -/
def columnLayout : List (Nat × Char) :=
  [(4, '-'), (2, '-'), (2, 'T'), (2, ':'), (2, ':'), (2, '.'), (9, 'Z')]

theorem columnText_eq_layout (h : t.HasPlainYear) :
    t.columnText = layout columnLayout t.fields := by
  rw [columnText, nanosText, text_eq, yearText_of_plain h]
  rfl

theorem fields_fit (h : t.HasPlainYear) :
    List.Forall₂ (fun f n => n < 10 ^ f.1) columnLayout t.fields := by
  obtain ⟨hyear, hyear'⟩ := h
  obtain ⟨-, hmonth, -, hday⟩ := t.date_isValid.bounds
  have hhour := t.hour_lt
  have hminute := t.minute_lt
  have hsecond := t.secondOfMinute_le
  have hfraction := t.fraction_lt
  refine .cons ?_ (.cons ?_ (.cons ?_ (.cons ?_ (.cons ?_ (.cons ?_ (.cons ?_ .nil)))))) <;>
    simp only [Nat.reducePow] <;> omega

/-- Within a day, the later of two instants has the greater time of day. -/
theorem clock_lt (hday : t.dayNumber = u.dayNumber) (h : t < u) :
    t.hour < u.hour ∨ t.hour = u.hour ∧ (t.minute < u.minute ∨ t.minute = u.minute ∧
      (t.secondOfMinute < u.secondOfMinute ∨ t.secondOfMinute = u.secondOfMinute ∧
        t.fraction < u.fraction)) := by
  have horder : t.secondOfDay < u.secondOfDay ∨
      t.secondOfDay = u.secondOfDay ∧ t.nanos < u.nanos := by
    simp only [dayNumber, secondOfDay] at hday ⊢
    rcases h with h | ⟨h, hnanos⟩
    · omega
    · rw [h]
      exact Or.inr ⟨rfl, hnanos⟩
  have ht := t.nanos_cases
  have hu := u.nanos_cases
  simp only [hour, minute, secondOfMinute, fraction]
  omega

theorem fields_lt (ht : t.HasPlainYear) (h : t < u) : t.fields < u.fields := by
  have hyear := ht.1
  simp only [fields, List.cons_lt_cons_iff, List.not_lt_nil, and_false, or_false]
  by_cases hday : t.dayNumber = u.dayNumber
  · have hclock := clock_lt hday h
    have hdate : t.date = u.date := congrArg Date.ofDays hday
    rw [hdate]
    omega
  · have hdays : t.date.toDays < u.date.toDays := by
      rw [toDays_date, toDays_date]
      simp only [dayNumber] at hday
      rcases h with h | ⟨h, -⟩ <;> omega
    have hdate := Date.lt_of_toDays_lt t.date_isValid u.date_isValid hdays
    omega

theorem toColumn_lt (ht : t.HasPlainYear) (hu : u.HasPlainYear) (h : t < u) :
    t.toColumn < u.toColumn := by
  rw [String.lt_iff_toList_lt, toColumn, toColumn, String.toList_ofList, String.toList_ofList,
    columnText_eq_layout ht, columnText_eq_layout hu]
  exact layout_lt rfl (fields_fit hu) (fields_lt ht h)

theorem lt_or_eq_or_gt (t u : Timestamp) : t < u ∨ t = u ∨ u < t := by
  rcases Int.lt_trichotomy t.second u.second with h | h | h
  · exact Or.inl (Or.inl h)
  · rcases Nat.lt_trichotomy t.nanos u.nanos with h' | h' | h'
    · exact Or.inl (Or.inr ⟨h, h'⟩)
    · obtain ⟨second, nanos, hfit, hmin, hmax⟩ := t
      obtain ⟨second', nanos', hfit', hmin', hmax'⟩ := u
      cases h
      cases h'
      exact Or.inr (Or.inl rfl)
    · exact Or.inr (Or.inr (Or.inr ⟨h.symm, h'⟩))
  · exact Or.inr (Or.inr (Or.inl h))

theorem lt_asymm (h : t < u) : ¬ u < t := by
  intro h'
  rcases h with h | ⟨h, hnanos⟩
  · rcases h' with h' | ⟨h', -⟩ <;> omega
  · rcases h' with h' | ⟨-, hnanos'⟩ <;> omega

theorem le_trans {v : Timestamp} (h : t ≤ u) (h' : u ≤ v) : t ≤ v := by
  have htu : ¬ (u.second < t.second ∨ u.second = t.second ∧ u.nanos < t.nanos) := h
  have huv : ¬ (v.second < u.second ∨ v.second = u.second ∧ v.nanos < u.nanos) := h'
  show ¬ (v.second < t.second ∨ v.second = t.second ∧ v.nanos < t.nanos)
  omega

/-- Columns of plain years compare as their instants do, leap seconds included. -/
theorem toColumn_lt_iff (ht : t.HasPlainYear) (hu : u.HasPlainYear) :
    t.toColumn < u.toColumn ↔ t < u := by
  refine ⟨fun h => ?_, toColumn_lt ht hu⟩
  rcases lt_or_eq_or_gt t u with hlt | rfl | hgt
  · exact hlt
  · exact absurd h (String.lt_irrefl _)
  · exact absurd (String.lt_trans h (toColumn_lt hu ht hgt)) (String.lt_irrefl _)

theorem toColumn_le_iff (ht : t.HasPlainYear) (hu : u.HasPlainYear) :
    t.toColumn ≤ u.toColumn ↔ t ≤ u := by
  rw [← String.not_lt, toColumn_lt_iff hu ht]
  exact Iff.rfl

end Timestamp

end Time

end ChatArchive
