import ChatArchive.Text.Digits
import Mathlib.Algebra.Group.Nat.Defs

/-!
# Digits are read back as the number they were written from

Two writers put digits down, `fixedDigits` with a given width and `digits`
without leading zeros, and one reader takes them up, `ofDigits`. A reader of
dates or of JSON numbers asks three things of a written number: that every
character is a digit, so that a run of digits ends where the number ends, that
the run is as long as it should be, and that it denotes the number. They are
stated here once for each writer; everything else about written numbers follows
from them.
-/

namespace ChatArchive.Text

theorem digitValue_digitChar (d : Nat) : digitValue (digitChar d) = d % 10 := by
  have key : ∀ k < 10, digitValue (Char.ofNat (48 + k)) = k := by decide
  exact key (d % 10) (Nat.mod_lt d (by decide))

theorem isDigit_digitChar (d : Nat) : isDigit (digitChar d) = true := by
  have key : ∀ k < 10, isDigit (Char.ofNat (48 + k)) = true := by decide
  exact key (d % 10) (Nat.mod_lt d (by decide))

/-- A digit counts as much as one of the ten digit characters, and as no other
character: what holds of the ten holds of it. -/
theorem isDigit_cases {c : Char} (h : isDigit c = true) :
    c ∈ ['0', '1', '2', '3', '4', '5', '6', '7', '8', '9'] := by
  simp only [isDigit, Bool.and_eq_true, decide_eq_true_eq, Char.le_def] at h
  have h₁ : 48 ≤ c.toNat := h.1
  have h₂ : c.toNat ≤ 57 := h.2
  have key : ∀ k < 58, 48 ≤ k →
      Char.ofNat k ∈ ['0', '1', '2', '3', '4', '5', '6', '7', '8', '9'] := by
    decide
  rw [← Char.ofNat_toNat c]
  exact key c.toNat (by omega) h₁

theorem isBlank_of_isDigit {c : Char} (h : isDigit c = true) :
    isBlank c = false := by
  have key : ['0', '1', '2', '3', '4', '5', '6', '7', '8', '9'].all (!isBlank ·) = true := by
    decide
  simpa using List.all_eq_true.1 key c (isDigit_cases h)

theorem ofDigits_append (as bs : List Char) :
    ofDigits (as ++ bs)
      = bs.foldl (fun n c => n * 10 + digitValue c) (ofDigits as) := by
  rw [ofDigits, ofDigits, List.foldl_append]

theorem ofDigits_concat (as : List Char) (c : Char) :
    ofDigits (as ++ [c]) = ofDigits as * 10 + digitValue c := by
  rw [ofDigits_append]
  rfl

theorem digitValue_lt {c : Char} (h : isDigit c = true) : digitValue c < 10 := by
  have key : ['0', '1', '2', '3', '4', '5', '6', '7', '8', '9'].all (digitValue · < 10) = true := by
    decide
  simpa using List.all_eq_true.1 key c (isDigit_cases h)

theorem ofDigits_lt {ds : List Char} (h : ∀ c ∈ ds, isDigit c = true) :
    ofDigits ds < 10 ^ ds.length := by
  have hfold : ∀ a, ds.foldl (fun n c => n * 10 + digitValue c) a < (a + 1) * 10 ^ ds.length := by
    induction ds with
    | nil => simp
    | cons c ds ih =>
        intro a
        have hc := digitValue_lt (h c List.mem_cons_self)
        refine Nat.lt_of_lt_of_le (ih (fun d hd => h d (List.mem_cons_of_mem c hd)) _) ?_
        rw [List.length_cons, Nat.pow_succ', ← Nat.mul_assoc]
        exact Nat.mul_le_mul_right _ (show a * 10 + digitValue c + 1 ≤ (a + 1) * 10 by omega)
  simpa [ofDigits] using hfold 0

/-! ## A fixed number of digits -/

theorem isDigit_of_mem_fixedDigits {w n : Nat} {c : Char}
    (h : c ∈ fixedDigits w n) : isDigit c = true := by
  induction w generalizing n with
  | zero => cases h
  | succ w ih =>
      rw [fixedDigits, List.mem_append] at h
      rcases h with h | h
      · exact ih h
      · rw [List.mem_singleton.1 h]
        exact isDigit_digitChar n

theorem ofDigits_fixedDigits (w n : Nat) :
    ofDigits (fixedDigits w n) = n % 10 ^ w := by
  induction w generalizing n with
  | zero => rw [Nat.pow_zero, Nat.mod_one]; rfl
  | succ w ih =>
      rw [fixedDigits, ofDigits_concat, ih, digitValue_digitChar, Nat.pow_succ,
        Nat.mul_comm (10 ^ w) 10, Nat.mod_mul]
      omega

/-! ## As many digits as a number needs -/

theorem isDigit_of_mem_digits {n : Nat} {c : Char} (h : c ∈ digits n) :
    isDigit c = true := by
  induction n using digits.induct with
  | case1 n hlt =>
      rw [digits, if_pos hlt] at h
      rw [List.mem_singleton.1 h]
      exact isDigit_digitChar n
  | case2 n hge ih =>
      rw [digits, if_neg hge, List.mem_append] at h
      rcases h with h | h
      · exact ih h
      · rw [List.mem_singleton.1 h]
        exact isDigit_digitChar n

theorem ofDigits_digits (n : Nat) : ofDigits (digits n) = n := by
  induction n using digits.induct with
  | case1 n hlt =>
      rw [digits, if_pos hlt]
      have h := ofDigits_concat [] (digitChar n)
      rw [List.nil_append, digitValue_digitChar] at h
      rw [h, ofDigits, List.foldl_nil]
      omega
  | case2 n hge ih =>
      rw [digits, if_neg hge, ofDigits_concat, ih, digitValue_digitChar]
      omega

theorem digits_ne_nil (n : Nat) : digits n ≠ [] := by
  rw [digits]
  split
  · exact List.cons_ne_nil _ _
  · exact List.append_ne_nil_of_right_ne_nil _ (List.cons_ne_nil _ _)

/-- A number below a power of ten has no more digits than its exponent. -/
theorem length_digits_le_iff {w n : Nat} (hw : 0 < w) : (digits n).length ≤ w ↔ n < 10 ^ w := by
  constructor
  · intro h
    have hlt := ofDigits_lt fun _ hc => isDigit_of_mem_digits (n := n) hc
    rw [ofDigits_digits] at hlt
    exact Nat.lt_of_lt_of_le hlt (Nat.pow_le_pow_right (by decide) h)
  · intro h
    induction w generalizing n with
    | zero => exact absurd hw (Nat.lt_irrefl 0)
    | succ w ih =>
        rw [digits]
        split
        · exact Nat.succ_le_succ (Nat.zero_le w)
        · next hten =>
            rw [List.length_append]
            refine Nat.succ_le_succ (ih (Nat.pos_of_ne_zero ?_) (by omega))
            rintro rfl
            omega

theorem length_paddedDigits (w n : Nat) :
    (paddedDigits w n).length = max w (digits n).length := by
  rw [paddedDigits, List.length_append, List.length_replicate]
  omega

theorem isDigit_of_mem_paddedDigits {w n : Nat} {c : Char}
    (h : c ∈ paddedDigits w n) : isDigit c = true := by
  rw [paddedDigits, List.mem_append] at h
  rcases h with h | h
  · rw [List.eq_of_mem_replicate h]
    decide
  · exact isDigit_of_mem_digits h

theorem ofDigits_zeros (k : Nat) : ofDigits (List.replicate k '0') = 0 := by
  induction k with
  | zero => rfl
  | succ k ih =>
      rw [List.replicate_succ', ofDigits_concat, ih]
      decide

theorem ofDigits_paddedDigits (w n : Nat) : ofDigits (paddedDigits w n) = n := by
  rw [paddedDigits, ofDigits_append, ofDigits_zeros]
  exact ofDigits_digits n

theorem paddedDigits_ne_nil (w n : Nat) : paddedDigits w n ≠ [] := by
  rw [paddedDigits]
  exact List.append_ne_nil_of_right_ne_nil _ (digits_ne_nil n)

/-! ## Runs of digits -/

/-- A text that does not go on with a digit: a run of digits in front of it
ends there. -/
def EndsDigits (rest : List Char) : Prop :=
  ∀ c ∈ rest.head?, isDigit c = false

theorem endsDigits_cons {c : Char} (h : isDigit c = false) (rest : List Char) :
    EndsDigits (c :: rest) := by
  intro d hd
  cases hd
  exact h

theorem takeWhile_isDigit_append {ds rest : List Char}
    (hds : ∀ c ∈ ds, isDigit c = true) (hrest : EndsDigits rest) :
    (ds ++ rest).takeWhile isDigit = ds := by
  rw [List.takeWhile_append_of_pos hds]
  cases rest with
  | nil => simp
  | cons c cs => simp [hrest c rfl]

end ChatArchive.Text
