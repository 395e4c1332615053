import ChatArchive.Proofs.Encodings

/-!
# Integers in JSON are read back exactly

The number reader decides late what it has read: it takes up digits into a significand of
64 bits, counts those that it had to leave out, and looks for a fraction or an exponent
before it says whether the number was an integer at all. A written integer passes all of
that unchanged. Its digits have no leading zero, they fit the significand if the integer
fits 64 bits, and what follows a written value is no part of a number.
-/

namespace ChatArchive.Text

theorem digits_zero_head {n : Nat} {rest : List Char} (h : digits n = '0' :: rest) :
    n = 0 ∧ rest = [] := by
  induction n using digits.induct generalizing rest with
  | case1 n hlt =>
      rw [digits, if_pos hlt, List.cons.injEq] at h
      obtain ⟨hchar, hrest⟩ := h
      have hvalue := digitValue_digitChar n
      rw [hchar] at hvalue
      have hzero : digitValue '0' = 0 := by decide
      exact ⟨by omega, hrest.symm⟩
  | case2 n hge ih =>
      rw [digits, if_neg hge] at h
      cases hds : digits (n / 10) with
      | nil => exact absurd hds (digits_ne_nil _)
      | cons c cs =>
          rw [hds, List.cons_append, List.cons.injEq] at h
          obtain ⟨rfl, -⟩ := h
          have := (ih hds).1
          omega

theorem isDigit_head {n : Nat} {c : Char} {cs : List Char} (h : digits n = c :: cs) :
    isDigit c = true := by
  have hmem : c ∈ digits n := by simp [h]
  exact isDigit_of_mem_digits hmem

theorem dropWhile_isDigit_append {ds rest : List Char}
    (hds : ∀ c ∈ ds, isDigit c = true) (hrest : EndsDigits rest) :
    (ds ++ rest).dropWhile isDigit = rest := by
  have h : (ds ++ rest).takeWhile isDigit ++ (ds ++ rest).dropWhile isDigit = ds ++ rest :=
    List.takeWhile_append_dropWhile
  rw [takeWhile_isDigit_append hds hrest] at h
  exact List.append_cancel_left h

end ChatArchive.Text

namespace ChatArchive.Json

open ChatArchive.Text

theorem Delimited.head? {rest : List Char} (h : Delimited rest) :
    rest.head? = none ∨ rest.head? = some ',' ∨ rest.head? = some ']' ∨ rest.head? = some '}' := by
  cases rest with
  | nil => simp
  | cons c cs => simpa using h c rfl

theorem Delimited.endsDigits {rest : List Char} (h : Delimited rest) : EndsDigits rest := by
  intro c hc
  rcases h c hc with rfl | rfl | rfl <;> decide

namespace Reader

/-! ## The significand -/

theorem le_foldl_digits (s : Nat) (ds : List Char) :
    s ≤ ds.foldl (fun n c => n * 10 + digitValue c) s := by
  induction ds generalizing s with
  | nil => simp
  | cons d ds ih =>
      have := ih (s * 10 + digitValue d)
      rw [List.foldl_cons]
      omega

/-- Digits that fit are all taken up. -/
theorem absorb_eq {ds : List Char} {s : Nat} (k : Nat)
    (h : ds.foldl (fun n c => n * 10 + digitValue c) s ≤ significandMax) :
    absorb s k ds = (ds.foldl (fun n c => n * 10 + digitValue c) s, k + ds.length) := by
  induction ds generalizing s k with
  | nil => rfl
  | cons d ds ih =>
      rw [List.foldl_cons] at h ⊢
      have hfits := le_foldl_digits (s * 10 + digitValue d) ds
      simp only [absorb]
      rw [if_pos (by omega), ih (k + 1) h, List.length_cons]
      simp only [Prod.mk.injEq, true_and]
      omega

/-! ## Numbers -/

/-- An integer as the number reader sees it. -/
def numeralOf : Int → Numeral
  | .ofNat n => .natural n
  | .negSucc n => .negative (n + 1)

theorem numberTail_delimited {rest : List Char} (h : Delimited rest) (negative : Bool)
    (n : Nat) :
    numberTail negative n 0 rest =
      (if !negative then pure (Numeral.natural n)
        else if n = 0 ∨ 9223372036854775808 < n then
          pure (.float (Number.Binary64.ofNat n).neg)
        else pure (.negative n) : Reader Numeral) rest := by
  rw [numberTail, bind_ok (get_apply _)]
  rcases h.head? with hc | hc | hc | hc <;> rw [hc] <;> rfl

theorem unsignedNumber_digits {rest : List Char} (h : Delimited rest) (negative : Bool) {n : Nat}
    (hn : n ≤ significandMax) :
    unsignedNumber negative (digits n ++ rest) = numberTail negative n 0 rest := by
  cases hds : digits n with
  | nil => exact absurd hds (digits_ne_nil n)
  | cons c cs =>
      rw [List.cons_append, unsignedNumber, bind_ok (next_cons _ _ _)]
      by_cases hc : c = '0'
      · subst hc
        obtain ⟨rfl, rfl⟩ := digits_zero_head hds
        rw [if_pos rfl, List.nil_append, bind_ok (get_apply _)]
        rcases h.head? with hc | hc | hc | hc <;> rw [hc] <;> rfl
      · have hrun : digitRun (cs ++ rest) = .ok (cs, rest) := by
          have hcs : ∀ d ∈ cs, isDigit d = true := by
            intro d hd
            have hmem : d ∈ digits n := by simp [hds, hd]
            exact isDigit_of_mem_digits hmem
          rw [digitRun, takeWhile_isDigit_append hcs h.endsDigits,
            dropWhile_isDigit_append hcs h.endsDigits]
        have hvalue : (c :: cs).foldl (fun n c => n * 10 + digitValue c) 0 = n := by
          rw [← hds]
          exact ofDigits_digits n
        have habsorb : absorb 0 0 (c :: cs) = (n, (c :: cs).length) := by
          rw [absorb_eq 0 (by rw [hvalue]; exact hn), hvalue, Nat.zero_add]
        rw [if_neg hc, if_pos (isDigit_head hds), bind_ok hrun]
        simp only [habsorb, Nat.sub_self]
        rfl

theorem number_unsigned {cs : List Char} (h : cs.head? ≠ some '-') :
    number cs = unsignedNumber false cs := by
  rw [number, bind_ok (get_apply _)]
  refine congrFun (g := unsignedNumber false) ?_ cs
  split
  · next hminus => exact absurd hminus h
  · rfl

/-- Integers of 64 bits are read as such, with a sign or without one. -/
theorem number_signedDigits {i : Int} (hlow : -9223372036854775808 ≤ i)
    (hhigh : i ≤ 18446744073709551615) {rest : List Char} (h : Delimited rest) :
    number (signedDigits i ++ rest) = .ok (numeralOf i, rest) := by
  cases i with
  | ofNat n =>
      have hn : n ≤ significandMax := Int.ofNat_le.1 hhigh
      have hhead : (digits n ++ rest).head? ≠ some '-' := by
        cases hds : digits n with
        | nil => exact absurd hds (digits_ne_nil n)
        | cons c cs =>
            intro hminus
            have hdigit := isDigit_head hds
            simp only [List.cons_append, List.head?_cons, Option.some.injEq] at hminus
            rw [hminus] at hdigit
            exact absurd hdigit (by decide)
      rw [signedDigits, number_unsigned hhead, unsignedNumber_digits h false hn,
        numberTail_delimited h]
      rfl
  | negSucc n =>
      have hn : n + 1 ≤ 9223372036854775808 := by omega
      rw [signedDigits, List.cons_append, number, bind_ok (get_apply _)]
      simp only [List.head?_cons]
      rw [bind_ok (skip_cons _ _), unsignedNumber_digits h true (by rw [significandMax]; omega),
        numberTail_delimited h]
      simp only [Bool.not_true, Bool.false_eq_true, if_false]
      rw [if_neg (by omega)]
      rfl

theorem isBlank_digit {c : Char} (h : isDigit c = true) : isBlank c = false := by
  have key : ['0', '1', '2', '3', '4', '5', '6', '7', '8', '9'].all (!isBlank ·) = true := by
    decide
  simpa using List.all_eq_true.1 key c (isDigit_cases h)

theorem signedDigits_head (i : Int) :
    ∃ c cs, signedDigits i = c :: cs ∧ (c = '-' ∨ isDigit c = true) := by
  cases i with
  | ofNat n =>
      cases hds : digits n with
      | nil => exact absurd hds (digits_ne_nil n)
      | cons c cs => exact ⟨c, cs, hds, .inr (isDigit_head hds)⟩
  | negSucc n => exact ⟨'-', _, rfl, .inl rfl⟩

theorem startsValue_signedDigits (i : Int) : StartsValue (signedDigits i) := by
  obtain ⟨c, cs, h, hc⟩ := signedDigits_head i
  refine ⟨c, cs, h, ?_, ?_⟩
  · rcases hc with rfl | hc
    · decide
    · exact isBlank_digit hc
  · rcases hc with rfl | hc
    · decide
    · rintro rfl
      exact absurd hc (by decide)

theorem numeral_signedDigits {i : Int} (hlow : -9223372036854775808 ≤ i)
    (hhigh : i ≤ 18446744073709551615) {rest : List Char} (h : Delimited rest) :
    numeral (signedDigits i ++ rest) = .ok (numeralOf i, rest) := by
  obtain ⟨c, cs, hds, hc⟩ := signedDigits_head i
  have hblank : isBlank c = false := by
    obtain ⟨d, ds, hds', hd, -⟩ := startsValue_signedDigits i
    cases hds.symm.trans hds'
    exact hd
  have hstart : valueStart (signedDigits i ++ rest) = .ok (c, signedDigits i ++ rest) := by
    rw [hds, List.cons_append, valueStart, bind_ok (peek_cons hblank)]
    rfl
  rw [numeral, bind_ok hstart, if_pos (by simpa using hc)]
  exact number_signedDigits hlow hhigh h

theorem integer_signedDigits {low high i : Int} (hlow : low ≤ i) (hhigh : i ≤ high)
    (hlow' : -9223372036854775808 ≤ low) (hhigh' : high ≤ 18446744073709551615)
    {rest : List Char} (h : Delimited rest) :
    integer low high (signedDigits i ++ rest) = .ok (i, rest) := by
  rw [integer, bind_ok (numeral_signedDigits (by omega) (by omega) h)]
  cases i with
  | ofNat n => exact congrFun (if_pos ⟨hlow, hhigh⟩) rest
  | negSucc n => exact congrFun (if_pos ⟨hlow, hhigh⟩) rest

end Reader

/-! ## Encodings -/

namespace Encoding

theorem chars_ofInt (i : Int) : chars (.ofInt i) = signedDigits i := by
  rw [Json.ofInt, chars, String.toList_ofList]

theorem faithful_uint64 (n : UInt64) : uint64.Faithful n := by
  have hn := n.toNat_lt
  have hchars : chars (uint64.write n) = signedDigits n.toNat := chars_ofInt n.toNat
  refine ⟨hchars ▸ Reader.startsValue_signedDigits _, fun rest h => ?_⟩
  show (Reader.integer _ _ >>= _) (_ ++ rest) = _
  rw [hchars, bind_ok (Reader.integer_signedDigits (by omega) (by omega) (by omega) (by omega) h)]
  simp [pure_apply]

theorem faithful_int64 (i : Int64) : int64.Faithful i := by
  have hlow := i.le_toInt
  have hhigh := i.toInt_lt
  refine ⟨chars_ofInt i.toInt ▸ Reader.startsValue_signedDigits _, fun rest h => ?_⟩
  show (Reader.integer _ _ >>= _) (chars (.ofInt i.toInt) ++ rest) = _
  rw [chars_ofInt,
    bind_ok (Reader.integer_signedDigits (by omega) (by omega) (by omega) (by omega) h)]
  simp [pure_apply]

theorem faithful_bool (b : Bool) : bool.Faithful b := by
  refine ⟨?_, fun rest _ => ?_⟩
  · cases b
    · exact startsValue_cons (by decide) (by decide)
    · exact startsValue_cons (by decide) (by decide)
  · cases b <;> rfl

end Encoding

end ChatArchive.Json
