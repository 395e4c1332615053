import ChatArchive.Number.Binary64
import Mathlib.Algebra.Group.Nat.Defs
import Mathlib.Tactic.SplitIfs

/-!
# Quotients of small integers in binary floating point

Integers below 2^53 are represented as they are, so the quotient of two of them is rounded
only once. Rounding to the nearest never passes a number of the format: a quotient between
zero and a small integer stays there.
-/

namespace ChatArchive.Number

theorem roundDiv_le {num den k : Nat} (hden : 0 < den) (h : num ≤ k * den) :
    roundDiv num den ≤ k := by
  have hdiv := Nat.div_add_mod num den
  have hquotient : num / den ≤ k := Nat.div_le_of_le_mul (by rwa [Nat.mul_comm])
  rcases Nat.lt_or_eq_of_le hquotient with hlt | heq
  · rw [roundDiv]
    split_ifs <;> omega
  · have hzero : num % den = 0 := by
      rw [heq, Nat.mul_comm] at hdiv
      omega
    rw [roundDiv, hzero, heq]
    exact Nat.le_of_eq (if_pos (by omega))

theorem roundDiv_one (n : Nat) : roundDiv n 1 = n := by
  rw [roundDiv, Nat.div_one, Nat.mod_one]
  rfl

theorem roundDiv_mul_right {c : Nat} (hc : 0 < c) (num den : Nat) :
    roundDiv (num * c) (den * c) = roundDiv num den := by
  have hless (a b : Nat) : a * c < b * c ↔ a < b := Nat.mul_lt_mul_right hc
  simp only [roundDiv, Nat.mul_div_mul_right num den hc, Nat.mul_mod_mul_right, ← Nat.mul_assoc,
    hless]

theorem scaleDown_mul_right (num den c : Nat) (e : Int) :
    scaleDown (num * c) (den * c) e
      = ((scaleDown num den e).1 * c, (scaleDown num den e).2 * c) := by
  rw [scaleDown, scaleDown]
  split
  · rw [Nat.mul_right_comm]
  · rw [Nat.mul_right_comm]

theorem log2_mul_two_pow {n : Nat} (hn : n ≠ 0) (k : Nat) :
    (n * Nat.pow 2 k).log2 = n.log2 + k := by
  induction k with
  | zero => simp
  | succ k ih =>
      have hne : n * Nat.pow 2 k ≠ 0 := Nat.mul_ne_zero hn (Nat.ne_of_gt (Nat.two_pow_pos k))
      have hdouble : n * Nat.pow 2 (k + 1) = 2 * (n * Nat.pow 2 k) := by
        simp only [Nat.pow_eq, Nat.pow_succ]
        ac_rfl
      rw [hdouble, Nat.log2_two_mul hne, ih, Nat.add_assoc]

theorem scaleDown_of_nonpos {e : Int} (h : e ≤ 0) (num den : Nat) :
    scaleDown num den e = (num * Nat.pow 2 e.natAbs, den) := by
  rw [scaleDown]
  split
  · rfl
  · rw [show e = 0 by omega]
    simp

namespace Binary64

/-- A number from zero to a natural number. -/
def Within (n : Nat) : Binary64 → Prop
  | .finite negative m e =>
    (negative = true → m = 0) ∧ (fraction m e).1 ≤ n * (fraction m e).2
  | _ => False

instance (n : Nat) (x : Binary64) : Decidable (x.Within n) := by
  cases x with
  | finite negative m e => exact inferInstanceAs (Decidable (_ ∧ _))
  | infinite negative => exact inferInstanceAs (Decidable False)
  | nan => exact inferInstanceAs (Decidable False)

theorem fraction_of_nonpos {e : Int} (h : e ≤ 0) (m : Nat) :
    fraction m e = (m, Nat.pow 2 e.natAbs) := by
  rw [fraction]
  split
  · rfl
  · rw [show e = 0 by omega]
    simp

/-- Quotients below 2^53 need no positive exponent. -/
theorem exponentOf_nonpos {num den : Nat} (h : num < 9007199254740992 * den) :
    exponentOf num den ≤ 0 := by
  have hguess : (num.log2 : Int) - den.log2 - 53 ≤ 0 := by
    by_cases hnum : num = 0
    · rw [hnum, Nat.log2_zero]
      omega
    · have hden' : den < 2 ^ (den.log2 + 1) := Nat.lt_log2_self
      have hnum' : num < 2 ^ (54 + den.log2) := by
        rw [show 54 + den.log2 = 53 + (den.log2 + 1) by omega, Nat.pow_add]
        exact Nat.lt_of_lt_of_le h (Nat.mul_le_mul_left _ (Nat.le_of_lt hden'))
      have := (Nat.log2_lt hnum).2 hnum'
      omega
  have hquotient : num / den < 9007199254740992 := Nat.div_lt_of_lt_mul (by rwa [Nat.mul_comm])
  have hfits : ∀ e : Int, e = 0 → decide ((scaleDown num den e).1 / (scaleDown num den e).2
      < Nat.pow 2 53) = true := by
    intro e he
    rw [he, scaleDown_of_nonpos (Int.le_refl 0)]
    simpa using hquotient
  rw [exponentOf]
  simp only []
  split_ifs with hfirst hsecond
  · omega
  · have hne : max (-1074) ((num.log2 : Int) - den.log2 - 53) ≠ 0 := fun h0 =>
      hfirst (hfits _ h0)
    omega
  · have hne : max (-1074) ((num.log2 : Int) - den.log2 - 53) ≠ 0 := fun h0 =>
      hfirst (hfits _ h0)
    have hne' : max (-1074) ((num.log2 : Int) - den.log2 - 53) + 1 ≠ 0 := fun h0 =>
      hsecond (hfits _ h0)
    omega

/-- How a quotient up to a small integer is rounded: its significand is the nearest integer
at an exponent that is not positive. -/
theorem round_eq {num den n : Nat} (hden : 0 < den) (h : num ≤ n * den)
    (hn : n < 9007199254740992) (negative : Bool) :
    ∃ (m k : Nat) (e : Int), e ≤ 0 ∧ round negative num den = .finite negative m e ∧
      m * Nat.pow 2 k = roundDiv (num * Nat.pow 2 k) den * Nat.pow 2 e.natAbs := by
  have he : exponentOf num den ≤ 0 :=
    exponentOf_nonpos (Nat.lt_of_le_of_lt h (Nat.mul_lt_mul_of_pos_right hn hden))
  rw [round]
  simp only [scaleDown_of_nonpos he]
  generalize exponentOf num den = e at he
  have hle : roundDiv (num * Nat.pow 2 e.natAbs) den ≤ n * Nat.pow 2 e.natAbs := by
    refine roundDiv_le hden ?_
    rw [Nat.mul_right_comm]
    exact Nat.mul_le_mul_right _ h
  generalize hm : roundDiv (num * Nat.pow 2 e.natAbs) den = m at hle
  by_cases hfull : m = Nat.pow 2 53
  · have hneg : e < 0 := by
      rcases Int.lt_or_eq_of_le he with hlt | rfl
      · exact hlt
      · rw [hfull] at hle
        simp at hle
        omega
    have hpow : e.natAbs = (e + 1).natAbs + 1 := by omega
    rw [if_pos hfull]
    simp only []
    rw [if_neg (by omega), if_neg (by decide)]
    refine ⟨_, e.natAbs, e + 1, by omega, rfl, ?_⟩
    rw [hm, hfull, hpow]
    simp only [Nat.pow_eq, Nat.pow_succ]
    omega
  · rw [if_neg hfull]
    simp only []
    rw [if_neg (by omega)]
    split
    · next hzero =>
        refine ⟨0, e.natAbs, -1074, by decide, rfl, ?_⟩
        rw [hm, hzero, Nat.zero_mul, Nat.zero_mul]
    · exact ⟨m, e.natAbs, e, he, rfl, by rw [hm]⟩

theorem two_pow_pos (k : Nat) : 0 < Nat.pow 2 k := Nat.two_pow_pos k

/-- A quotient between zero and a small integer stays there when it is rounded. -/
theorem within_round {num den n : Nat} (hden : 0 < den) (h : num ≤ n * den)
    (hn : n < 9007199254740992) : (round false num den).Within n := by
  obtain ⟨m, k, e, he, hround, hvalue⟩ := round_eq hden h hn false
  have hle : roundDiv (num * Nat.pow 2 k) den ≤ n * Nat.pow 2 k := by
    refine roundDiv_le hden ?_
    rw [Nat.mul_right_comm]
    exact Nat.mul_le_mul_right _ h
  rw [hround]
  refine ⟨fun h => (by cases h), ?_⟩
  rw [fraction_of_nonpos he]
  refine Nat.le_of_mul_le_mul_right (c := Nat.pow 2 k) ?_ (two_pow_pos k)
  rw [hvalue, Nat.mul_right_comm]
  exact Nat.mul_le_mul_right _ hle

/-- Small integers are represented as they are. -/
theorem round_natural {n : Nat} (hn : n < 9007199254740992) (negative : Bool) :
    ∃ e : Int, e ≤ 0 ∧ round negative n 1 = .finite negative (n * Nat.pow 2 e.natAbs) e := by
  obtain ⟨m, k, e, he, hround, hvalue⟩ :=
    round_eq Nat.one_pos (show n ≤ n * 1 by omega) hn negative
  rw [roundDiv_one, Nat.mul_right_comm] at hvalue
  rw [Nat.eq_of_mul_eq_mul_right (two_pow_pos k) hvalue] at hround
  exact ⟨e, he, hround⟩

theorem ofInt_natCast (n : Nat) : ofInt n = ofNat n := by
  rw [ofInt, decide_eq_false (by omega), Int.natAbs_natCast]
  rfl

theorem round_zero {den : Nat} (hden : 0 < den) (negative : Bool) :
    round negative 0 den = .finite negative 0 (-1074) := by
  have he : exponentOf 0 den ≤ 0 := exponentOf_nonpos (Nat.mul_pos (by decide) hden)
  have hzero : roundDiv 0 den = 0 := Nat.le_zero.1 (roundDiv_le hden (Nat.zero_le _))
  simp only [round, scaleDown_of_nonpos he, Nat.zero_mul, hzero]
  rw [if_neg (show ¬ 0 = Nat.pow 2 53 by decide)]
  simp only []
  rw [if_neg (by omega), if_pos trivial]

/-- Only the quotient counts: a common power of two in it is not seen. -/
theorem round_mul_two_pow {den : Nat} (hden : 0 < den) (num k : Nat) (negative : Bool) :
    round negative (num * Nat.pow 2 k) (den * Nat.pow 2 k) = round negative num den := by
  by_cases hnum : num = 0
  · rw [hnum, Nat.zero_mul, round_zero hden, round_zero (Nat.mul_pos hden (two_pow_pos k))]
  · have hexponent : exponentOf (num * Nat.pow 2 k) (den * Nat.pow 2 k) = exponentOf num den := by
      have hguess : (((num.log2 + k : Nat) : Int) - (den.log2 + k : Nat) - 53)
          = (num.log2 : Int) - den.log2 - 53 := by omega
      simp only [exponentOf, log2_mul_two_pow hnum, log2_mul_two_pow (Nat.ne_of_gt hden), hguess,
        scaleDown_mul_right, Nat.mul_div_mul_right _ _ (two_pow_pos k)]
    simp only [round, hexponent, scaleDown_mul_right, roundDiv_mul_right (two_pow_pos k)]

/-- The quotient of small numbers is the exact quotient, rounded once. -/
theorem div_ofNat {num den : Nat} (hden : 0 < den) (hnum53 : num < 9007199254740992)
    (hden53 : den < 9007199254740992) : (ofNat num).div (ofNat den) = round false num den := by
  obtain ⟨e, he, hnum⟩ := round_natural hnum53 false
  obtain ⟨f, hf, hround⟩ := round_natural hden53 false
  rw [ofNat, ofNat, hnum, hround, div,
    if_neg (Nat.mul_ne_zero (Nat.ne_of_gt hden) (Nat.ne_of_gt (two_pow_pos _)))]
  rw [fraction]
  split
  · next p q hfraction =>
      split at hfraction
      · next hless =>
          cases hfraction
          have hpow : Nat.pow 2 (e - f).natAbs * (den * Nat.pow 2 f.natAbs)
              = den * Nat.pow 2 e.natAbs := by
            rw [show e.natAbs = (e - f).natAbs + f.natAbs by omega]
            simp only [Nat.pow_eq, Nat.pow_add]
            ac_rfl
          rw [hpow]
          exact round_mul_two_pow hden num _ false
      · next hmore =>
          cases hfraction
          have hpow : num * Nat.pow 2 e.natAbs * Nat.pow 2 (e - f).natAbs
              = num * Nat.pow 2 f.natAbs := by
            rw [show f.natAbs = e.natAbs + (e - f).natAbs by omega]
            simp only [Nat.pow_eq, Nat.pow_add]
            ac_rfl
          rw [hpow, Nat.one_mul]
          exact round_mul_two_pow hden num _ false

/-- A quotient of small integers stays between zero and a small integer. -/
theorem within_div {i : Int} {len n : Nat} (hi : 0 ≤ i) (hlen : 0 < len) (h : i ≤ len * n)
    (hi53 : i < 9007199254740992) (hlen53 : len < 9007199254740992)
    (hn53 : n < 9007199254740992) : ((ofInt i).div (ofNat len)).Within n := by
  obtain ⟨num, rfl⟩ := Int.eq_ofNat_of_zero_le hi
  have hle : num ≤ n * len := by
    rw [Nat.mul_comm]
    exact_mod_cast h
  rw [ofInt_natCast, div_ofNat hlen (by omega) hlen53]
  exact within_round hlen hle hn53

end Binary64

end ChatArchive.Number
