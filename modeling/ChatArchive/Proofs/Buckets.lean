import ChatArchive.Proofs.Integers
import ChatArchive.Proofs.TimeText
import ChatArchive.Store.Figures

/-!
# The second that a column counts in

A sweep counts starts and ends by the second. The second of a column is taken from its text,
to the nearest millisecond first, so an instant in the last half of a millisecond of a second
already counts in the next one. Later instants never count in earlier seconds, unless the first
is in a year that counts a day late: -100, -200, -300, -500 and so on, each begun in March.

Not every column has a second. The reader knows no second 60, no year of more than four
digits, nothing before the first Julian day, and no millisecond after the year 9999, to which
the last half of a millisecond of that year is rounded.
-/

namespace ChatArchive

open Text

namespace Time

/-! ## Fields -/

/-- A number written with the right number of digits is read if it is within the bounds. -/
theorem boundedDigits?_of_digits {width : Nat} {ds : List Char} (hlength : ds.length = width)
    (hdigits : ∀ c ∈ ds, isDigit c = true) (low high : Nat) (rest : List Char) :
    boundedDigits? width low high (ds ++ rest)
      = if low ≤ ofDigits ds ∧ ofDigits ds ≤ high then some (ofDigits ds, rest) else none := by
  have hsplit : (ds ++ rest).splitAt width = (ds, rest) := by
    rw [List.splitAt_eq, List.take_left' hlength, List.drop_left' hlength]
  rw [boundedDigits?, hsplit]
  simp [hlength, List.all_eq_true.2 hdigits]

theorem boundedDigits?_fixedDigits {width low high n : Nat} {rest : List Char}
    (hn : n < 10 ^ width) (hlow : low ≤ n) (hhigh : n ≤ high) :
    boundedDigits? width low high (fixedDigits width n ++ rest) = some (n, rest) := by
  have hvalue : ofDigits (fixedDigits width n) = n :=
    (ofDigits_fixedDigits width n).trans (Nat.mod_eq_of_lt hn)
  rw [boundedDigits?_of_digits (length_fixedDigits width n) fun _ hc =>
    isDigit_of_mem_fixedDigits hc, hvalue, if_pos ⟨hlow, hhigh⟩]

/-- A field that starts with something else than a digit. -/
theorem boundedDigits?_cons {width low high : Nat} {c : Char} (hc : isDigit c = false)
    (rest : List Char) : boundedDigits? (width + 1) low high (c :: rest) = none := by
  rw [boundedDigits?, List.splitAt_eq, List.take_succ_cons]
  simp only [List.all_cons, hc, Bool.false_and, Bool.and_false]
  rfl

theorem after?_cons (c : Char) (rest : List Char) : after? c (c :: rest) = some rest := if_pos rfl

/-! ## The year -/

theorem signedYear?_unsigned {c : Char} (hc : c ≠ '-') (cs : List Char) :
    signedYear? (c :: cs)
      = (boundedDigits? 4 0 9999 (c :: cs)).bind fun p => some ((p.1 : Int), p.2) := by
  rw [signedYear?]
  · rfl
  · exact fun _ h => absurd (List.cons.inj h).1 hc

/-- A year of up to four digits is read back, with its sign if it is negative. -/
theorem signedYear?_yearText {y : Int} (h : y.natAbs ≤ 9999) (rest : List Char) :
    signedYear? (yearText y ++ rest) = some (y, rest) := by
  by_cases hplain : 0 ≤ y ∧ y ≤ 9999
  · have hfirst := signedYear?_unsigned (c := digitChar (y.toNat / 10 / 10 / 10))
      (fun h => by simpa [h, isDigit] using isDigit_digitChar (y.toNat / 10 / 10 / 10))
      (digitChar (y.toNat / 10 / 10) :: digitChar (y.toNat / 10) :: digitChar y.toNat :: rest)
    have hread : boundedDigits? 4 0 9999 (fixedDigits 4 y.toNat ++ rest) = some (y.toNat, rest) :=
      boundedDigits?_fixedDigits (by omega) (Nat.zero_le _) (by omega)
    rw [yearText, if_pos hplain]
    refine hfirst.trans ((congrArg (Option.bind · _) hread).trans ?_)
    rw [Option.bind_some, Int.toNat_of_nonneg hplain.1]
  · have hfew : (digits y.natAbs).length ≤ 4 := (length_digits_le_iff (by decide)).2 (by omega)
    have hlength : (paddedDigits 4 y.natAbs).length = 4 := by
      rw [length_paddedDigits]
      omega
    rw [yearText, if_neg hplain, if_pos (by omega), List.cons_append, signedYear?,
      boundedDigits?_of_digits hlength fun _ hc => isDigit_of_mem_paddedDigits hc,
      ofDigits_paddedDigits, if_pos ⟨Nat.zero_le _, h⟩, Option.bind_eq_bind, Option.bind_some,
      Option.some.injEq, Prod.mk.injEq]
    exact ⟨by omega, rfl⟩

/-- Of a longer year no more than four digits are read, and no year ends there. -/
theorem signedYear?_far {y : Int} (h : 9999 < y.natAbs) (rest : List Char) :
    (signedYear? (yearText y ++ rest)).bind (fun p => after? '-' p.2) = none := by
  rw [yearText, if_neg (by omega), List.cons_append]
  split
  · have hmany : 4 < (paddedDigits 4 y.natAbs).length := by
      have hdigits : ¬ (digits y.natAbs).length ≤ 4 := fun hle =>
        absurd ((length_digits_le_iff (by decide)).1 hle) (by omega)
      rw [length_paddedDigits]
      omega
    have hdigits : ∀ c ∈ paddedDigits 4 y.natAbs, isDigit c = true := fun _ hc =>
      isDigit_of_mem_paddedDigits hc
    rw [← List.take_append_drop 4 (paddedDigits 4 y.natAbs)] at hdigits ⊢
    obtain ⟨d, more, hdrop⟩ := List.exists_cons_of_length_pos
      (show 0 < ((paddedDigits 4 y.natAbs).drop 4).length by rw [List.length_drop]; omega)
    have hd : isDigit d = true := hdigits d (by rw [hdrop]; simp)
    rw [signedYear?, List.append_assoc, boundedDigits?_of_digits
      (by rw [List.length_take]; omega) fun c hc => hdigits c (List.mem_append_left _ hc), hdrop]
    split
    · exact if_neg fun hsign => by simp [hsign, isDigit] at hd
    · rfl
  · rw [signedYear?_unsigned (by decide), boundedDigits?_cons (by decide)]
    rfl

theorem not_isTimeBlank {c : Char} (h : isDigit c = true) : isTimeBlank c = false ∧ c ≠ 'T' := by
  have key : ['0', '1', '2', '3', '4', '5', '6', '7', '8', '9'].all
      (fun d => !isTimeBlank d && d != 'T') := by decide
  simpa using List.all_eq_true.1 key c (isDigit_cases h)

theorem secondOfText?_of_year {cs : List Char}
    (h : (signedYear? cs).bind (fun p => after? '-' p.2) = none) : secondOfText? cs = none := by
  rw [secondOfText?]
  cases hyear : signedYear? cs with
  | none => rfl
  | some p =>
      rw [hyear, Option.bind_some] at h
      simp only [Option.bind_eq_bind, Option.bind_some, h, Option.bind_none]

/-! ## The time of day -/

theorem secondMillis?_fixedDigits {s f : Nat} (hs : s ≤ 59) (hf : f < 1000000000) :
    secondMillis? (':' :: (fixedDigits 2 s ++ ('.' :: (fixedDigits 9 f ++ ['Z']))))
      = some (s * 1000 + (f + 500000) / 1000000, ['Z']) := by
  have hdigits : ∀ c ∈ fixedDigits 9 f, isDigit c = true := fun _ hc =>
    isDigit_of_mem_fixedDigits hc
  have htake : (fixedDigits 9 f ++ ['Z']).takeWhile isDigit = fixedDigits 9 f :=
    takeWhile_isDigit_append hdigits (endsDigits_cons (by decide) _)
  have hdrop : (fixedDigits 9 f ++ ['Z']).dropWhile isDigit = ['Z'] :=
    dropWhile_isDigit_append hdigits (endsDigits_cons (by decide) _)
  have hround : roundedMillis s (fixedDigits 9 f) = s * 1000 + (f + 500000) / 1000000 := by
    have hvalue : f % 10 ^ 9 = f := Nat.mod_eq_of_lt (by omega)
    rw [roundedMillis, length_fixedDigits, ofDigits_fixedDigits, hvalue]
    simp only [Nat.pow_eq, Nat.reducePow]
    omega
  obtain ⟨c, more, hcons⟩ := List.exists_cons_of_length_pos
    (show 0 < (fixedDigits 9 f).length by rw [length_fixedDigits]; decide)
  rw [hcons] at htake hdrop hround hdigits ⊢
  rw [secondMillis?, boundedDigits?_fixedDigits (by omega) (Nat.zero_le s) hs,
    Option.bind_eq_bind, Option.bind_some]
  simp only [List.cons_append] at htake hdrop ⊢
  rw [if_pos (hdigits c List.mem_cons_self), htake, hdrop, hround]

/-- There is no second 60. -/
theorem secondMillis?_leap (rest : List Char) :
    secondMillis? (':' :: (fixedDigits 2 60 ++ rest)) = none := by
  rw [secondMillis?, boundedDigits?_of_digits (length_fixedDigits 2 60) fun _ hc =>
    isDigit_of_mem_fixedDigits hc, if_neg (by decide)]
  rfl

namespace Timestamp

variable {t u : Timestamp}

/-- Whether an instant counts a day late. -/
def Late (t : Timestamp) : Prop := isLate t.date.year t.date.month = true

instance (t : Timestamp) : Decidable t.Late := inferInstanceAs (Decidable (_ = true))

/-- The milliseconds since 1970 that an instant is rounded to, with the day that it may be late. -/
def millis (t : Timestamp) : Int :=
  t.second * 1000 + ((t.nanos + 500000) / 1000000 : Nat) + if t.Late then 86400000 else 0

/-- The second that an instant counts in, if it is not in a leap second: if it does not count a
day late its own, or the next one in its last half of a millisecond. -/
def counted (t : Timestamp) : Int := t.millis / 1000

/-- An instant that counts in a second: it is in no leap second, and rounded to a millisecond it
is neither before the first Julian day nor after the year 9999. -/
structure Countable (t : Timestamp) : Prop where
  noLeap : t.nanos < 1000000000
  first : firstMilli ≤ t.millis
  last : t.millis ≤ lastMilli

/-- The time of day that follows the date of a column. -/
theorem dropWhile_blanks (hour : Nat) (rest : List Char) :
    ('T' :: (fixedDigits 2 hour ++ rest)).dropWhile (fun c => isTimeBlank c || c = 'T')
      = fixedDigits 2 hour ++ rest := by
  obtain ⟨hblank, hmark⟩ := not_isTimeBlank (isDigit_digitChar (hour / 10))
  rw [List.dropWhile_cons_of_pos (by decide)]
  show (digitChar (hour / 10) :: _).dropWhile _ = _
  rw [List.dropWhile_cons_of_neg (by simp [hblank, hmark])]
  rfl

theorem fixedDigits_two (n : Nat) (rest : List Char) :
    fixedDigits 2 n ++ rest = digitChar (n / 10) :: digitChar n :: rest := rfl

/-- A column, part by part. -/
theorem columnText_eq (t : Timestamp) : t.columnText = yearText t.date.year ++
    ('-' :: (fixedDigits 2 t.date.month ++ ('-' :: (fixedDigits 2 t.date.day ++
      ('T' :: (fixedDigits 2 t.hour ++ (':' :: (fixedDigits 2 t.minute ++
        (':' :: (fixedDigits 2 t.secondOfMinute ++ ('.' :: (fixedDigits 9 t.fraction
          ++ ['Z'])))))))))))) := by
  rw [columnText, text_eq]
  rfl

/-- The date of a column is found, and the time of day is read behind it. -/
theorem secondOfText?_columnText (h : t.date.year.natAbs ≤ 9999) :
    secondOfText? t.columnText
      = (timeMillis? (fixedDigits 2 t.hour ++ (':' :: (fixedDigits 2 t.minute ++
          (':' :: (fixedDigits 2 t.secondOfMinute ++
            ('.' :: (fixedDigits 9 t.fraction ++ ['Z'])))))))).bind
        fun ms => secondOfMillis? ((t.dayNumber + if t.Late then 1 else 0) * 86400000 + ms) := by
  obtain ⟨hmonth, hmonth', hday, hday'⟩ := t.date_isValid.bounds
  have hdate : countedDays ⟨t.date.year, t.date.month, t.date.day⟩
      = t.dayNumber + if t.Late then 1 else 0 := by
    rw [countedDays, show Date.toDays _ = t.dayNumber from toDays_date t]
    rfl
  rw [columnText_eq, secondOfText?, signedYear?_yearText h]
  simp only [Option.bind_eq_bind, Option.bind_some, after?_cons]
  rw [boundedDigits?_fixedDigits (by omega) hmonth (by omega)]
  simp only [Option.bind_some, after?_cons]
  rw [boundedDigits?_fixedDigits (by omega) hday (by omega)]
  simp only [Option.bind_some]
  rw [dropWhile_blanks, hdate, fixedDigits_two t.hour]

/-- A column of a year with more than four digits is not read. -/
theorem secondOfText?_far (h : 9999 < t.date.year.natAbs) : secondOfText? t.columnText = none := by
  rw [columnText_eq]
  exact secondOfText?_of_year (signedYear?_far h _)

theorem timeMillis?_of_plain (h : t.nanos < 1000000000) :
    timeMillis? (fixedDigits 2 t.hour ++ (':' :: (fixedDigits 2 t.minute ++
      (':' :: (fixedDigits 2 t.secondOfMinute ++ ('.' :: (fixedDigits 9 t.fraction ++ ['Z'])))))))
      = some ((t.secondOfDay * 1000 + (t.nanos + 500000) / 1000000 : Nat) : Int) := by
  have hhour := t.hour_lt
  have hminute := t.minute_lt
  have hsecond : t.secondOfMinute = t.secondOfDay % 60 := by
    simp only [secondOfMinute]
    omega
  have hfraction : t.fraction = t.nanos := Nat.mod_eq_of_lt h
  have hclock : t.hour * 3600000 + t.minute * 60000 + t.secondOfDay % 60 * 1000
      = t.secondOfDay * 1000 := by
    simp only [hour, minute]
    omega
  rw [timeMillis?, boundedDigits?_fixedDigits (by omega) (Nat.zero_le _) (by omega)]
  simp only [Option.bind_eq_bind, Option.bind_some, after?_cons]
  rw [boundedDigits?_fixedDigits (by omega) (Nat.zero_le _) (by omega)]
  simp only [Option.bind_some]
  rw [hfraction, hsecond, secondMillis?_fixedDigits (by omega) h]
  simp only [Option.bind_some]
  rw [show offsetMinutes? ['Z'] = some 0 from by decide, Option.bind_some, Option.some.injEq]
  omega

theorem timeMillis?_of_leap (h : 1000000000 ≤ t.nanos) (rest : List Char) :
    timeMillis? (fixedDigits 2 t.hour ++ (':' :: (fixedDigits 2 t.minute ++
      (':' :: (fixedDigits 2 t.secondOfMinute ++ rest))))) = none := by
  have hhour := t.hour_lt
  have hminute := t.minute_lt
  have hsecond : t.secondOfMinute = 60 := by
    have := t.nanos_cases
    simp only [secondOfMinute]
    omega
  rw [timeMillis?, boundedDigits?_fixedDigits (by omega) (Nat.zero_le _) (by omega)]
  simp only [Option.bind_eq_bind, Option.bind_some, after?_cons]
  rw [boundedDigits?_fixedDigits (by omega) (Nat.zero_le _) (by omega)]
  simp only [Option.bind_some]
  rw [hsecond, secondMillis?_leap]
  rfl

/-- The years that a column has more than four digits for are not countable. -/
theorem Countable.natAbs_year_le (h : t.Countable) : t.date.year.natAbs ≤ 9999 := by
  obtain ⟨hlow, hhigh⟩ := t.day_in_year
  obtain ⟨hnanos, hfirst, hlast⟩ := h
  have hbefore : daysBeforeYear (-9999) = -3652059 := by decide
  have hafter : daysBeforeYear 10000 = 3652425 := by decide
  simp only [millis, firstMilli, lastMilli] at hfirst hlast
  simp only [dayNumber, epochDay] at hlow hhigh
  apply Decidable.byContradiction
  intro hfar
  rcases Int.lt_or_le t.date.year 0 with hneg | hpos
  · have := daysBeforeYear_le (show t.date.year + 1 ≤ -9999 by omega)
    omega
  · have := daysBeforeYear_le (show 10000 ≤ t.date.year by omega)
    omega

/-- The column of an instant has a second exactly if the instant is countable. -/
theorem secondOf_toColumn_iff (s : Int) :
    Store.secondOf t.toColumn = some s ↔ t.Countable ∧ t.counted = s := by
  rw [Store.secondOf, toColumn, String.toList_ofList]
  by_cases hyear : t.date.year.natAbs ≤ 9999
  · rw [secondOfText?_columnText hyear]
    by_cases hleap : t.nanos < 1000000000
    · have hmillis : (t.dayNumber + if t.Late then 1 else 0) * 86400000
          + ((t.secondOfDay * 1000 + (t.nanos + 500000) / 1000000 : Nat) : Int) = t.millis := by
        simp only [millis, dayNumber, secondOfDay]
        split <;> omega
      rw [timeMillis?_of_plain hleap, Option.bind_some, hmillis, secondOfMillis?]
      split
      · next hrange =>
          rw [Option.some.injEq, counted]
          exact (and_iff_right ⟨hleap, hrange.1, hrange.2⟩).symm
      · next hrange =>
          exact iff_of_false (Option.some_ne_none s).symm fun h => hrange ⟨h.1.first, h.1.last⟩
    · rw [timeMillis?_of_leap (Nat.not_lt.1 hleap), Option.bind_none]
      exact iff_of_false (Option.some_ne_none s).symm fun h => hleap h.1.noLeap
  · rw [secondOfText?_far (Nat.not_le.1 hyear)]
    exact iff_of_false (Option.some_ne_none s).symm fun h => hyear h.1.natAbs_year_le

theorem Countable.secondOf (h : t.Countable) : Store.secondOf t.toColumn = some t.counted :=
  (secondOf_toColumn_iff _).2 ⟨h, rfl⟩

/-- Later instants do not count in earlier seconds. The first of the two may not count a day late:
at the end of such a year the next one begins a day before. -/
theorem counted_mono (ht : t.Countable) (hlate : ¬ t.Late) (hle : t ≤ u) :
    t.counted ≤ u.counted := by
  have hnot : ¬ (u.second < t.second ∨ u.second = t.second ∧ u.nanos < t.nanos) := hle
  have hnanos := ht.noLeap
  simp only [counted, millis, if_neg hlate]
  split <;> omega

end Timestamp

end Time

end ChatArchive
