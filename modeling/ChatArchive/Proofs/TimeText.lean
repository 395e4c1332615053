import ChatArchive.Proofs.Calendar
import ChatArchive.Proofs.Digits
import ChatArchive.Proofs.Sequencing
import ChatArchive.Time.Format
import ChatArchive.Time.Parse
import Mathlib.Algebra.Group.Nat.Defs

/-!
# Written instants are read back, where the reader takes their year

Instants are written in one layout, with nine fraction digits in a column and
with as few as needed in JSON, and read by two readers. The relaxed reader takes
every written instant back. The strict one has room for four digits of the year
and takes back the instants whose year has four, no others: before the year 0
and from 10000 on the writer puts a sign in front of the year, which the strict
reader refuses at the first character.

Leap seconds need no case of their own. Second 60 is written for an instant in
the last second of its minute whose nanosecond part is a second or more, and
read as exactly that.
-/

namespace ChatArchive.Time

open ChatArchive.Text

/-- The year is one of 0 to 9999, so that it is written with four digits and
without a sign. -/
def Timestamp.HasPlainYear (t : Timestamp) : Prop :=
  0 ≤ t.date.year ∧ t.date.year ≤ 9999

instance (t : Timestamp) : Decidable t.HasPlainYear :=
  inferInstanceAs (Decidable (_ ∧ _))

/-! ## Single steps -/

namespace Scan

theorem charOf_cons {p : Char → Bool} {c : Char} {rest : List Char}
    (h : p c = true) : charOf p (c :: rest) = .ok (c, rest) := if_pos h

theorem digitsFrom_append {ds : List Char} (h : ∀ c ∈ ds, isDigit c = true) (acc : Nat)
    (rest : List Char) :
    digitsFrom ds.length acc (ds ++ rest)
      = .ok (ds.foldl (fun n c => n * 10 + digitValue c) acc, rest) := by
  induction ds generalizing acc with
  | nil => rfl
  | cons d ds ih =>
      rw [List.length_cons, List.cons_append, digitsFrom,
        bind_ok (charOf_cons (h d List.mem_cons_self)),
        ih (fun c hc => h c (List.mem_cons_of_mem d hc)), List.foldl_cons]

/-- A field of a fixed width. -/
theorem exactly_fixedDigits (w n : Nat) (rest : List Char) :
    exactly w (fixedDigits w n ++ rest) = .ok (n % 10 ^ w, rest) := by
  have hdigits : ∀ c ∈ fixedDigits w n, isDigit c := fun _ hc =>
    isDigit_of_mem_fixedDigits hc
  have h := digitsFrom_append hdigits 0 rest
  rw [length_fixedDigits] at h
  rw [exactly, h, ← ofDigits_fixedDigits]
  rfl

/-- As many digits as there are, if there are some and not too many. -/
theorem upTo_append {most : Nat} {ds rest : List Char} (hne : ds ≠ [])
    (hlen : ds.length ≤ most) (hds : ∀ c ∈ ds, isDigit c = true)
    (hrest : EndsDigits rest) : upTo most (ds ++ rest) = .ok (ds, rest) := by
  have htake : ((ds ++ rest).take most).takeWhile isDigit = ds := by
    rw [List.take_append, List.take_of_length_le hlen]
    refine takeWhile_isDigit_append hds ?_
    intro c hc
    cases rest with
    | nil => rw [List.take_nil] at hc; cases hc
    | cons r rs =>
        cases hk : most - ds.length with
        | zero => rw [hk] at hc; cases hc
        | succ k => rw [hk] at hc; exact hrest c hc
  cases ds with
  | nil => exact absurd rfl hne
  | cons d ds =>
      rw [List.cons_append] at htake ⊢
      rw [upTo, if_pos (hds d List.mem_cons_self)]
      simp only [htake]
      rw [← List.cons_append, List.drop_left]

theorem blanks_of_not_blank {c : Char} {rest : List Char}
    (h : Text.isBlank c = false) : blanks (c :: rest) = .ok ((), c :: rest) := by
  rw [blanks, trimStart, List.dropWhile_cons_of_neg (by rw [h]; decide)]

/-- Two digits of a relaxed field. -/
theorem field_fixedDigits {low high n : Nat} {rest : List Char} (hn : n < 100)
    (hlow : low ≤ n) (hhigh : n ≤ high) (hrest : EndsDigits rest) :
    field low high (fixedDigits 2 n ++ rest) = .ok (n, rest) := by
  have hds : ∀ c ∈ fixedDigits 2 n, isDigit c = true :=
    fun _ hc => isDigit_of_mem_fixedDigits hc
  have hval : ofDigits (fixedDigits 2 n) = n :=
    (ofDigits_fixedDigits 2 n).trans (Nat.mod_eq_of_lt hn)
  have hne : fixedDigits 2 n ≠ [] :=
    List.ne_nil_of_length_pos (by rw [length_fixedDigits]; decide)
  have hblanks : blanks (fixedDigits 2 n ++ rest) = .ok ((), fixedDigits 2 n ++ rest) :=
    blanks_of_not_blank (isBlank_of_isDigit (isDigit_digitChar _))
  rw [field, bind_ok hblanks,
    bind_ok (upTo_append hne (Nat.le_of_eq (length_fixedDigits 2 n)) hds hrest)]
  simp only [hval]
  rw [if_pos ⟨hlow, hhigh⟩]
  rfl

theorem mark_cons {c : Char} {rest : List Char} (h : Text.isBlank c = false) :
    mark c (c :: rest) = .ok ((), rest) := by
  rw [mark, bind_ok (blanks_of_not_blank h),
    bind_ok (charOf_cons (p := (· = c)) (decide_eq_true rfl))]
  rfl

/-- The offset of an instant in UTC. -/
theorem offset_utc (separator : Scan Unit) (rest : List Char) :
    offset separator ('Z' :: rest) = .ok (0, rest) := rfl

end Scan

/-- A text is the fraction `n` of a second, in nanoseconds, in front of the `Z`
that ends an instant. It may not look like more digits of the second. -/
structure WritesFraction (text : List Char) (n : Nat) : Prop where
  ends : ∀ rest, EndsDigits (text ++ 'Z' :: rest)
  reads : ∀ rest, Scan.fraction (text ++ 'Z' :: rest) = .ok (n, 'Z' :: rest)

theorem writesFraction_nil : WritesFraction [] 0 :=
  ⟨fun rest => endsDigits_cons (by decide) rest, fun _ => rfl⟩

theorem writesFraction_fixedDigits {w n : Nat} (hw : 0 < w) (hw9 : w ≤ 9) :
    WritesFraction ('.' :: fixedDigits w n) (n % 10 ^ w * 10 ^ (9 - w)) := by
  refine ⟨fun rest => endsDigits_cons (by decide) _, fun rest => ?_⟩
  have hup : Scan.upTo 9 (fixedDigits w n ++ 'Z' :: rest)
      = .ok (fixedDigits w n, 'Z' :: rest) :=
    Scan.upTo_append (List.ne_nil_of_length_pos (by rw [length_fixedDigits]; exact hw))
      (by rw [length_fixedDigits]; exact hw9)
      (fun _ hc => isDigit_of_mem_fixedDigits hc) (endsDigits_cons (by decide) rest)
  simp only [List.cons_append, Scan.fraction]
  rw [bind_ok hup, bind_ok (modify_apply _ _), ofDigits_fixedDigits,
    length_fixedDigits]
  rfl

namespace Timestamp

theorem fraction_lt (t : Timestamp) : t.fraction < 1000000000 :=
  Nat.mod_lt _ (by decide)

theorem writesFraction_nanosText (t : Timestamp) :
    WritesFraction t.nanosText t.fraction := by
  have h := writesFraction_fixedDigits (w := 9) (n := t.fraction) (by decide) (by decide)
  have hmod : t.fraction % 10 ^ 9 = t.fraction := Nat.mod_eq_of_lt t.fraction_lt
  rwa [hmod, Nat.sub_self, Nat.pow_zero, Nat.mul_one] at h

theorem writesFraction_shortFraction (t : Timestamp) :
    WritesFraction t.shortFraction t.fraction := by
  have hlt := t.fraction_lt
  simp only [shortFraction]
  split
  · next h0 => rw [h0]; exact writesFraction_nil
  · split
    · next h6 =>
        have h := writesFraction_fixedDigits (w := 3) (n := t.fraction / 1000000)
          (by decide) (by decide)
        rwa [Nat.mod_eq_of_lt (by omega), show 10 ^ (9 - 3) = 1000000 from rfl,
          Nat.div_mul_cancel (Nat.dvd_of_mod_eq_zero h6)] at h
    · split
      · next h3 =>
          have h := writesFraction_fixedDigits (w := 6) (n := t.fraction / 1000)
            (by decide) (by decide)
          rwa [Nat.mod_eq_of_lt (by omega), show 10 ^ (9 - 6) = 1000 from rfl,
            Nat.div_mul_cancel (Nat.dvd_of_mod_eq_zero h3)] at h
      · exact t.writesFraction_nanosText

/-! ## The time of day -/

theorem yearText_of_plain {t : Timestamp} (h : t.HasPlainYear) :
    yearText t.date.year = fixedDigits 4 t.date.year.toNat := if_pos h

theorem yearText_of_not_plain {t : Timestamp} (h : ¬ t.HasPlainYear) :
    yearText t.date.year
      = (if t.date.year < 0 then '-' else '+') :: paddedDigits 4 t.date.year.natAbs :=
  if_neg h

theorem secondOfDay_lt (t : Timestamp) : t.secondOfDay < 86400 := by
  simp only [secondOfDay]
  omega

theorem hour_lt (t : Timestamp) : t.hour < 24 := by
  have := t.secondOfDay_lt
  simp only [hour]
  omega

theorem minute_lt (t : Timestamp) : t.minute < 60 := Nat.mod_lt _ (by decide)

/-- A nanosecond part of a second or more occurs in the last second of a minute
only. -/
theorem nanos_cases (t : Timestamp) :
    t.nanos < 1000000000 ∨
      (1000000000 ≤ t.nanos ∧ t.nanos < 2000000000 ∧ t.secondOfDay % 60 = 59) := by
  simp only [secondOfDay]
  rcases t.nanos_fit with h | ⟨h, hsec⟩ <;> omega

theorem secondOfMinute_le (t : Timestamp) : t.secondOfMinute ≤ 60 := by
  have := t.nanos_cases
  simp only [secondOfMinute]
  omega

/-- Hours, minutes, seconds and the fraction denote the time of day that they
were taken from, second 60 included. -/
theorem clockReading_eq (t : Timestamp) :
    clockReading t.hour t.minute t.secondOfMinute t.fraction
      = (t.secondOfDay, t.nanos) := by
  have hday := t.secondOfDay_lt
  have hfit := t.nanos_cases
  rw [clockReading]
  split
  · next h =>
      simp only [hour, minute, secondOfMinute, fraction, Prod.mk.injEq] at h ⊢
      constructor <;> omega
  · next h =>
      simp only [hour, minute, secondOfMinute, fraction, Prod.mk.injEq] at h ⊢
      constructor <;> omega

/-- Date, time of day and nanosecond part denote the instant that they were
taken from. -/
theorem ofCivil?_date (t : Timestamp) :
    ofCivil? t.date t.secondOfDay t.nanos 0 = some t := by
  have hsecond : t.date.toDays * 86400 + t.secondOfDay - 0 = t.second := by
    rw [toDays_date]
    simp only [secondOfDay]
    omega
  rw [ofCivil?, hsecond, ofParts?, dif_pos ⟨t.nanos_fit, t.min_le, t.le_max⟩]

/-- An instant as both readers take it apart, with one of the two fractions. -/
theorem text_eq (t : Timestamp) (frac : List Char) :
    t.date.text ++ 'T' :: t.timeText ++ frac ++ ['Z']
      = yearText t.date.year ++ ('-' :: (fixedDigits 2 t.date.month ++
          ('-' :: (fixedDigits 2 t.date.day ++ ('T' :: (fixedDigits 2 t.hour ++
            (':' :: (fixedDigits 2 t.minute ++ (':' ::
              (fixedDigits 2 t.secondOfMinute ++ (frac ++ ['Z']))))))))))) := by
  simp only [Date.text, timeText, hourMinuteText, List.append_assoc, List.cons_append]

/-! ## The strict reader -/

/-- The strict reader takes back an instant of a plain year. -/
theorem scanStrict_text {t : Timestamp} (hyear : t.HasPlainYear)
    {frac : List Char} (hfrac : WritesFraction frac t.fraction) :
    scanStrict (t.date.text ++ 'T' :: t.timeText ++ frac ++ ['Z']) = .ok (t, []) := by
  obtain ⟨hm₁, hm₂, hd₁, hd₂⟩ := t.date_isValid.bounds
  have hh := t.hour_lt
  have hmin := t.minute_lt
  have hs := t.secondOfMinute_le
  have hy : ((t.date.year.toNat % 10 ^ 4 : Nat) : Int) = t.date.year := by
    have := hyear.1
    have := hyear.2
    omega
  have hmonth : t.date.month % 10 ^ 2 = t.date.month := Nat.mod_eq_of_lt (by omega)
  have hday : t.date.day % 10 ^ 2 = t.date.day := Nat.mod_eq_of_lt (by omega)
  have hhour : t.hour % 10 ^ 2 = t.hour := Nat.mod_eq_of_lt (by omega)
  have hminute : t.minute % 10 ^ 2 = t.minute := Nat.mod_eq_of_lt (by omega)
  have hsecond : t.secondOfMinute % 10 ^ 2 = t.secondOfMinute :=
    Nat.mod_eq_of_lt (by omega)
  rw [text_eq, yearText_of_plain hyear, scanStrict,
    bind_ok (Scan.exactly_fixedDigits 4 _ _), bind_ok (Scan.charOf_cons (by decide)),
    bind_ok (Scan.exactly_fixedDigits 2 _ _), bind_ok (Scan.charOf_cons (by decide)),
    bind_ok (Scan.exactly_fixedDigits 2 _ _)]
  simp only [hy, hmonth, hday]
  rw [if_pos t.date_isValid]
  simp only [Scan.require]
  rw [bind_ok (pure_apply _ _), bind_ok (Scan.charOf_cons (by decide)),
    bind_ok (Scan.exactly_fixedDigits 2 _ _), bind_ok (Scan.charOf_cons (by decide)),
    bind_ok (Scan.exactly_fixedDigits 2 _ _), bind_ok (Scan.charOf_cons (by decide)),
    bind_ok (Scan.exactly_fixedDigits 2 _ _), bind_ok (hfrac.reads [])]
  simp only [hhour, hminute, hsecond]
  rw [if_pos ⟨hh, hmin, hs⟩]
  simp only []
  rw [bind_ok (pure_apply _ _), bind_ok (Scan.offset_utc _ []),
    bind_ok (get_apply _)]
  simp only [clockReading_eq]
  rw [if_neg (by decide), if_neg (by decide),
    show ofCivil? ⟨t.date.year, t.date.month, t.date.day⟩ t.secondOfDay t.nanos 0
      = some t from t.ofCivil?_date]
  rfl

/-- A text is at least as many bytes long as it has characters. -/
theorem length_le_byteLength (cs : List Char) : cs.length ≤ byteLength cs := by
  have key : ∀ n, n + cs.length ≤ cs.foldl (fun n c => n + c.utf8Size) n := by
    induction cs with
    | nil => intro n; exact Nat.le_refl n
    | cons c cs ih =>
        intro n
        have hc := c.utf8Size_pos
        have := ih (n + c.utf8Size)
        rw [List.length_cons, List.foldl_cons]
        omega
  have := key 0
  rw [byteLength]
  omega

theorem parseStrict_text {t : Timestamp} (hyear : t.HasPlainYear)
    {frac : List Char} (hfrac : WritesFraction frac t.fraction) :
    parseStrict (t.date.text ++ 'T' :: t.timeText ++ frac ++ ['Z']) = .ok t := by
  have hlen : 19 ≤ byteLength (t.date.text ++ 'T' :: t.timeText ++ frac ++ ['Z']) := by
    refine Nat.le_trans ?_ (length_le_byteLength _)
    rw [text_eq, yearText_of_plain hyear]
    simp only [List.length_append, List.length_cons, length_fixedDigits]
    omega
  rw [parseStrict, if_neg (by omega), scanStrict_text hyear hfrac]
  rfl

/-- A sign in front of the year is refused. -/
theorem parseStrict_sign {c : Char} (hc : isDigit c = false) (cs : List Char) :
    ∃ fault, parseStrict (c :: cs) = .error fault := by
  have hchar : Scan.charOf isDigit (c :: cs) = .error .invalid := by
    rw [Scan.charOf, if_neg (by rw [hc]; decide)]
  rw [parseStrict]
  split
  · exact ⟨_, rfl⟩
  · refine ⟨.invalid, ?_⟩
    rw [scanStrict, bind_error (e := .invalid)]
    · rfl
    · rw [Scan.exactly, Scan.digitsFrom, bind_error hchar]

/-- The strict reader takes an instant back exactly if its year is plain. -/
theorem parseStrict_text_iff {t : Timestamp} {frac : List Char}
    (hfrac : WritesFraction frac t.fraction) :
    (∃ u, parseStrict (t.date.text ++ 'T' :: t.timeText ++ frac ++ ['Z']) = .ok u)
      ↔ t.HasPlainYear := by
  constructor
  · intro h'
    obtain ⟨u, hu⟩ := h'
    apply Decidable.byContradiction
    intro hyear
    have hsign : isDigit (if t.date.year < 0 then '-' else '+') = false := by
      split <;> decide
    obtain ⟨fault, hfault⟩ := parseStrict_sign hsign (paddedDigits 4 t.date.year.natAbs ++
      ('-' :: (fixedDigits 2 t.date.month ++ ('-' :: (fixedDigits 2 t.date.day ++
        ('T' :: (fixedDigits 2 t.hour ++ (':' :: (fixedDigits 2 t.minute ++
          (':' :: (fixedDigits 2 t.secondOfMinute ++ (frac ++ ['Z']))))))))))))
    rw [text_eq, yearText_of_not_plain hyear, List.cons_append, hfault] at hu
    cases hu
  · exact fun hyear => ⟨t, parseStrict_text hyear hfrac⟩

/-! ## The relaxed reader -/

end Timestamp

namespace Scan

/-- A year that starts with a digit has no sign. -/
theorem year_unsigned {c : Char} (hc : isDigit c = true) (cs : List Char) :
    year (c :: cs) = (do
      let ds ← upTo 4
      if -2147483648 ≤ (ofDigits ds : Int) ∧ (ofDigits ds : Int) ≤ 2147483647 then
        pure (ofDigits ds : Int)
      else refuse .outOfRange : Scan Int) (c :: cs) := by
  have h := isDigit_cases hc
  simp only [List.mem_cons, List.not_mem_nil, or_false] at h
  rcases h with rfl | rfl | rfl | rfl | rfl | rfl | rfl | rfl | rfl | rfl <;> rfl

/-- A year after its sign. -/
theorem year_signed {c : Char} (hc : c = '-' ∨ c = '+') {cs ds rest : List Char}
    (hds : allDigits cs = .ok (ds, rest)) {y : Int}
    (hy : y = if c = '-' then -(ofDigits ds : Int) else ofDigits ds)
    (hrange : -2147483648 ≤ y ∧ y ≤ 2147483647) :
    year (c :: cs) = .ok (y, rest) := by
  rcases hc with rfl | rfl
  · rw [if_pos rfl] at hy
    rw [hy] at hrange
    rw [year, bind_ok (blanks_of_not_blank (by decide)), bind_ok (get_apply _)]
    show ((set cs : Scan PUnit) >>= _) ('-' :: cs) = _
    rw [bind_ok (set_apply _ _), bind_ok hds, bind_ok (pure_apply _ _)]
    simp only []
    rw [if_pos hrange, hy]
    rfl
  · rw [if_neg (by decide)] at hy
    rw [hy] at hrange
    rw [year, bind_ok (blanks_of_not_blank (by decide)), bind_ok (get_apply _)]
    show ((set cs : Scan PUnit) >>= _) ('+' :: cs) = _
    rw [bind_ok (set_apply _ _), bind_ok hds, bind_ok (pure_apply _ _)]
    simp only []
    rw [if_pos hrange, hy]
    rfl

/-- A written year, with or without a sign. -/
theorem year_yearText {y : Int} (hrange : -2147483648 ≤ y ∧ y ≤ 2147483647)
    (rest : List Char) : year (yearText y ++ '-' :: rest) = .ok (y, '-' :: rest) := by
  have hend : EndsDigits ('-' :: rest) := endsDigits_cons (by decide) rest
  by_cases hplain : 0 ≤ y ∧ y ≤ 9999
  · have hval : (ofDigits (fixedDigits 4 y.toNat) : Int) = y := by
      rw [ofDigits_fixedDigits]
      omega
    have hup : upTo 4 (fixedDigits 4 y.toNat ++ '-' :: rest)
        = .ok (fixedDigits 4 y.toNat, '-' :: rest) :=
      upTo_append (List.ne_nil_of_length_pos (by rw [length_fixedDigits]; decide))
        (Nat.le_of_eq (length_fixedDigits 4 _))
        (fun _ hc => isDigit_of_mem_fixedDigits hc) hend
    have hfirst := year_unsigned (isDigit_digitChar (y.toNat / 10 / 10 / 10))
      (digitChar (y.toNat / 10 / 10) :: digitChar (y.toNat / 10) ::
        digitChar y.toNat :: '-' :: rest)
    rw [yearText, if_pos hplain]
    refine Eq.trans hfirst ((bind_ok hup).trans ?_)
    rw [hval, if_pos hrange]
    rfl
  · have hall : allDigits (paddedDigits 4 y.natAbs ++ '-' :: rest)
        = .ok (paddedDigits 4 y.natAbs, '-' :: rest) := by
      refine upTo_append (paddedDigits_ne_nil 4 _) ?_
        (fun _ hc => isDigit_of_mem_paddedDigits hc) hend
      rw [List.length_append]
      omega
    rw [yearText, if_neg hplain, List.cons_append]
    refine year_signed ?_ hall ?_ hrange
    · split
      · exact Or.inl rfl
      · exact Or.inr rfl
    · rw [ofDigits_paddedDigits]
      split
      · rw [if_pos rfl]
        omega
      · rw [if_neg (by decide)]
        omega

end Scan

namespace Timestamp

/-- The relaxed reader takes every instant back. -/
theorem parseRelaxed_text (t : Timestamp) {frac : List Char}
    (hfrac : WritesFraction frac t.fraction) :
    parseRelaxed (t.date.text ++ 'T' :: t.timeText ++ frac ++ ['Z']) = .ok t := by
  obtain ⟨hm₁, hm₂, hd₁, hd₂⟩ := t.date_isValid.bounds
  obtain ⟨hy₁, hy₂⟩ := t.year_bounds
  have hh := t.hour_lt
  have hmin := t.minute_lt
  have hs := t.secondOfMinute_le
  have hscan : scanRelaxed (t.date.text ++ 'T' :: t.timeText ++ frac ++ ['Z'])
      = .ok (t, []) := by
    rw [text_eq, scanRelaxed, bind_ok (Scan.year_yearText ⟨by omega, by omega⟩ _),
      bind_ok (Scan.mark_cons (by decide)),
      bind_ok (Scan.field_fixedDigits (by omega) hm₁ hm₂ (endsDigits_cons (by decide) _)),
      bind_ok (Scan.mark_cons (by decide)),
      bind_ok (Scan.field_fixedDigits (by omega) hd₁ hd₂ (endsDigits_cons (by decide) _)),
      bind_ok (Scan.charOf_cons (by decide)),
      bind_ok (Scan.field_fixedDigits (by omega) (Nat.zero_le _) (by omega)
        (endsDigits_cons (by decide) _)),
      bind_ok (Scan.mark_cons (by decide)),
      bind_ok (Scan.field_fixedDigits (by omega) (Nat.zero_le _) (by omega)
        (endsDigits_cons (by decide) _)),
      bind_ok (Scan.mark_cons (by decide)),
      bind_ok (Scan.field_fixedDigits (by omega) (Nat.zero_le _) hs (hfrac.ends [])),
      bind_ok (hfrac.reads []), bind_ok (Scan.blanks_of_not_blank (by decide)),
      bind_ok (show scanRelaxedOffset ['Z'] = .ok (0, []) from rfl),
      bind_ok (show Scan.blanks [] = .ok ((), []) from rfl), bind_ok (get_apply _)]
    have hrange : yearInRange t.date.year = true := by
      rw [yearInRange, Bool.and_eq_true, decide_eq_true_eq, decide_eq_true_eq]
      exact ⟨hy₁, hy₂⟩
    have hvalid : decide (Date.IsValid ⟨t.date.year, t.date.month, t.date.day⟩) = true :=
      decide_eq_true t.date_isValid
    simp only [clockReading_eq, hrange, hvalid]
    rw [if_neg (by decide), if_neg (by decide),
      show ofCivil? ⟨t.date.year, t.date.month, t.date.day⟩ t.secondOfDay t.nanos 0
        = some t from t.ofCivil?_date]
    rfl
  rw [parseRelaxed, hscan]
  rfl

/-! ## The two written forms -/

/-- A column of a plain year holds its instant. -/
theorem parseStrict_columnText {t : Timestamp} (h : t.HasPlainYear) :
    parseStrict t.columnText = .ok t :=
  parseStrict_text h t.writesFraction_nanosText

/-- A column can be read exactly if its year is plain. -/
theorem parseStrict_columnText_iff (t : Timestamp) :
    (∃ u, parseStrict t.columnText = .ok u) ↔ t.HasPlainYear :=
  parseStrict_text_iff t.writesFraction_nanosText

/-- What JSON holds can be read as a column exactly if its year is plain. -/
theorem parseStrict_shortText {t : Timestamp} (h : t.HasPlainYear) :
    parseStrict t.shortText = .ok t :=
  parseStrict_text h t.writesFraction_shortFraction

theorem parseStrict_shortText_iff (t : Timestamp) :
    (∃ u, parseStrict t.shortText = .ok u) ↔ t.HasPlainYear :=
  parseStrict_text_iff t.writesFraction_shortFraction

/-- JSON holds every instant. -/
theorem parseRelaxed_shortText (t : Timestamp) : parseRelaxed t.shortText = .ok t :=
  t.parseRelaxed_text t.writesFraction_shortFraction

end Timestamp

end ChatArchive.Time
