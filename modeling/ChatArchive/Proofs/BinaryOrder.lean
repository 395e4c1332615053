import ChatArchive.Proofs.Rounding
import Mathlib.Algebra.Order.Field.Power
import Mathlib.Data.Rat.Lemmas
import Mathlib.Tactic.Linarith
import Mathlib.Tactic.NormNum
import Mathlib.Tactic.Positivity
import Mathlib.Tactic.Ring

/-!
# Rounding and the order of numbers

A quotient of natural numbers is rounded at the exponent where its integral part has 53 binary
digits, to the nearest integer there. The exponent and the integer depend on the value of the
quotient only, so rounding is a function of rational numbers. It is monotone: a larger number has
no smaller exponent, and where the exponent grows, the power of two between both is not passed.
The numbers of the format are left as they are.

For the range of a span of time it matters which numbers are rounded to 2^64 or beyond. The last
number of the format before it is 2^64 - 2^11, and the middle between both goes to the even one,
so these are the numbers from 2^64 - 2^10 on.
-/

namespace ChatArchive.Number

/-! ## The nearest integer -/

/-- The nearest natural number, ties to even. -/
def nearest (x : ℚ) : Nat := roundDiv x.num.toNat x.den

theorem div_le_div_iff_mul {a b c d : Nat} (hb : 0 < b) (hd : 0 < d) :
    (a : ℚ) / b ≤ c / d ↔ a * d ≤ c * b := by
  rw [div_le_div_iff₀ (by exact_mod_cast hb) (by exact_mod_cast hd)]
  exact_mod_cast Iff.rfl

theorem roundDiv_mono {a b c d : Nat} (hb : 0 < b) (hd : 0 < d) (h : a * d ≤ c * b) :
    roundDiv a b ≤ roundDiv c d := by
  have ha := Nat.div_add_mod a b
  have hc := Nat.div_add_mod c d
  have hquotient : a / b ≤ c / d := by
    rw [Nat.le_div_iff_mul_le hd]
    refine Nat.le_of_mul_le_mul_right (c := b) ?_ hb
    calc a / b * d * b = b * (a / b) * d := by ac_rfl
      _ ≤ a * d := Nat.mul_le_mul_right d (by omega)
      _ ≤ c * b := h
  rcases Nat.lt_or_eq_of_le hquotient with hlt | heq
  · rw [roundDiv, roundDiv]
    split_ifs <;> omega
  · have hrest : a % b * d ≤ c % d * b := by
      have hsame : b * (a / b) * d = d * (c / d) * b := by
        rw [heq]
        ac_rfl
      have hleft : a * d = b * (a / b) * d + a % b * d := by rw [← Nat.add_mul, ha]
      have hright : c * b = d * (c / d) * b + c % d * b := by rw [← Nat.add_mul, hc]
      omega
    have hup : b ≤ 2 * (a % b) → d ≤ 2 * (c % d) := by
      intro hhalf
      refine Nat.le_of_mul_le_mul_right (c := b) ?_ hb
      calc d * b = b * d := Nat.mul_comm d b
        _ ≤ 2 * (a % b) * d := Nat.mul_le_mul_right d hhalf
        _ = 2 * (a % b * d) := Nat.mul_assoc _ _ _
        _ ≤ 2 * (c % d * b) := Nat.mul_le_mul_left 2 hrest
        _ = 2 * (c % d) * b := (Nat.mul_assoc _ _ _).symm
    have hmore : b < 2 * (a % b) → d < 2 * (c % d) := by
      intro hhalf
      refine Nat.lt_of_mul_lt_mul_right (a := b) ?_
      calc d * b = b * d := Nat.mul_comm d b
        _ < 2 * (a % b) * d := Nat.mul_lt_mul_of_pos_right hhalf hd
        _ = 2 * (a % b * d) := Nat.mul_assoc _ _ _
        _ ≤ 2 * (c % d * b) := Nat.mul_le_mul_left 2 hrest
        _ = 2 * (c % d) * b := (Nat.mul_assoc _ _ _).symm
    rw [roundDiv, roundDiv, heq]
    split_ifs <;> omega

theorem roundDiv_le_of_lt {num den k : Nat} (hden : 0 < den) (h : 2 * num < (2 * k + 1) * den) :
    roundDiv num den ≤ k := by
  have hdiv := Nat.div_add_mod num den
  have hquotient : num / den ≤ k := by
    rw [← Nat.lt_succ_iff, Nat.div_lt_iff_lt_mul hden]
    rw [Nat.succ_mul]
    rw [Nat.add_mul, Nat.mul_assoc] at h
    omega
  rcases Nat.lt_or_eq_of_le hquotient with hlt | heq
  · rw [roundDiv]
    split_ifs <;> omega
  · rw [heq, Nat.mul_comm] at hdiv
    rw [Nat.add_mul, Nat.mul_assoc] at h
    rw [roundDiv, heq, if_pos (by omega)]

section

variable {x y : ℚ} {n : Nat}

theorem num_div_den (hx : 0 ≤ x) : (x.num.toNat : ℚ) / x.den = x := by
  have hnum : ((x.num.toNat : ℤ) : ℚ) = x.num := by
    rw [Int.toNat_of_nonneg (Rat.num_nonneg.2 hx)]
  rw [← Int.cast_natCast, hnum, Rat.num_div_den]

theorem nearest_mono (hx : 0 ≤ x) (h : x ≤ y) : nearest x ≤ nearest y := by
  refine roundDiv_mono x.den_pos y.den_pos ((div_le_div_iff_mul x.den_pos y.den_pos).1 ?_)
  rwa [num_div_den hx, num_div_den (hx.trans h)]

theorem nearest_div (num : Nat) {den : Nat} (hden : 0 < den) :
    nearest ((num : ℚ) / den) = roundDiv num den := by
  have hx : (0 : ℚ) ≤ num / den := by positivity
  have hvalue := num_div_den hx
  exact Nat.le_antisymm
    (roundDiv_mono (Rat.den_pos _) hden ((div_le_div_iff_mul (Rat.den_pos _) hden).1 hvalue.le))
    (roundDiv_mono hden (Rat.den_pos _) ((div_le_div_iff_mul hden (Rat.den_pos _)).1 hvalue.ge))

theorem nearest_natCast (n : Nat) : nearest (n : ℚ) = n := by
  have h := nearest_div n Nat.one_pos
  rwa [Nat.cast_one, div_one, roundDiv_one] at h

theorem nearest_le (hx : 0 ≤ x) (h : x ≤ n) : nearest x ≤ n :=
  (nearest_mono hx h).trans (nearest_natCast n).le

theorem le_nearest (h : n ≤ x) : n ≤ nearest x :=
  (nearest_natCast n).ge.trans (nearest_mono (Nat.cast_nonneg n) h)

/-- Less than the half is cut. -/
theorem nearest_le_of_lt (hx : 0 ≤ x) (h : x < n + 1 / 2) : nearest x ≤ n := by
  refine roundDiv_le_of_lt x.den_pos ?_
  have hden : (0 : ℚ) < x.den := by exact_mod_cast x.den_pos
  rw [← num_div_den hx, div_lt_iff₀ hden] at h
  have hdouble : (2 : ℚ) * x.num.toNat < (2 * n + 1) * x.den := by linarith
  exact_mod_cast hdouble

end

/-! ## Powers of two -/

theorem two_zpow_pos (e : ℤ) : (0 : ℚ) < 2 ^ e := zpow_pos two_pos e

theorem two_zpow_mono {e f : ℤ} (h : e ≤ f) : (2 : ℚ) ^ e ≤ 2 ^ f :=
  zpow_le_zpow_right₀ one_le_two h

theorem two_zpow_of_nonneg {e : ℤ} (h : 0 ≤ e) : (2 : ℚ) ^ e = (Nat.pow 2 e.natAbs : Nat) := by
  rw [Nat.pow_eq, Nat.cast_pow, Nat.cast_ofNat, ← zpow_natCast, Int.natAbs_of_nonneg h]

theorem two_zpow_of_neg {e : ℤ} (h : e < 0) : (2 : ℚ) ^ e = ((Nat.pow 2 e.natAbs : Nat) : ℚ)⁻¹ := by
  rw [Nat.pow_eq, Nat.cast_pow, Nat.cast_ofNat, ← zpow_natCast, ← zpow_neg]
  congr 1
  omega

theorem scaleDown_div (num : Nat) {den : Nat} (hden : 0 < den) (e : ℤ) :
    0 < (scaleDown num den e).2 ∧
      ((scaleDown num den e).1 : ℚ) / (scaleDown num den e).2 = num / den / 2 ^ e := by
  have hpos := Binary64.two_pow_pos e.natAbs
  rw [scaleDown]
  split
  · next hneg =>
      refine ⟨hden, ?_⟩
      rw [two_zpow_of_neg hneg, div_inv_eq_mul, Nat.cast_mul, mul_div_right_comm]
  · next hnonneg =>
      refine ⟨Nat.mul_pos hden hpos, ?_⟩
      rw [two_zpow_of_nonneg (by omega), Nat.cast_mul, div_div]

namespace Binary64

theorem fraction_div (m : Nat) (e : ℤ) :
    0 < (fraction m e).2 ∧ ((fraction m e).1 : ℚ) / (fraction m e).2 = m * 2 ^ e := by
  rw [fraction]
  split
  · next hneg => exact ⟨two_pow_pos _, by rw [two_zpow_of_neg hneg, div_eq_mul_inv]⟩
  · next hnonneg =>
      refine ⟨Nat.one_pos, ?_⟩
      rw [two_zpow_of_nonneg (by omega), Nat.cast_mul, Nat.cast_one, div_one]

/-! ## The exponent of a number -/

/-- The exponent at which a positive number is rounded. -/
structure IsExponent (x : ℚ) (e : ℤ) : Prop where
  least : -1074 ≤ e
  lt : x < 2 ^ 53 * 2 ^ e
  le : -1074 < e → 2 ^ 52 * 2 ^ e ≤ x

variable {x y : ℚ} {e f : ℤ} {num den : Nat}

theorem IsExponent.mono (hx : IsExponent x e) (hy : IsExponent y f) (h : x ≤ y) : e ≤ f := by
  by_contra hlt
  have hle := hx.le (by have := hy.least; omega)
  have hpow : (2 : ℚ) ^ (f + 1) ≤ 2 ^ e := two_zpow_mono (by omega)
  rw [zpow_add_one₀ two_ne_zero] at hpow
  have := hy.lt
  linarith

theorem IsExponent.eq (he : IsExponent x e) (hf : IsExponent x f) : e = f :=
  le_antisymm (he.mono hf le_rfl) (hf.mono he le_rfl)

theorem lt_two_zpow_log2 (num : Nat) (hden : 0 < den) :
    (num : ℚ) / den < 2 ^ 54 * 2 ^ ((num.log2 : ℤ) - den.log2 - 53) := by
  have hnum : (num : ℚ) < 2 ^ (num.log2 + 1) := by exact_mod_cast Nat.lt_log2_self
  have hden' : (2 : ℚ) ^ den.log2 ≤ den := by
    exact_mod_cast Nat.log2_self_le (Nat.ne_of_gt hden)
  have hpow : (2 : ℚ) ^ 54 * 2 ^ ((num.log2 : ℤ) - den.log2 - 53)
      = 2 ^ (num.log2 + 1) / 2 ^ den.log2 := by
    rw [← zpow_natCast, ← zpow_natCast, ← zpow_natCast, ← zpow_add₀ two_ne_zero,
      ← zpow_sub₀ two_ne_zero]
    congr 1
    omega
  rw [hpow, div_lt_div_iff₀ (by exact_mod_cast hden) (by positivity)]
  calc (num : ℚ) * 2 ^ den.log2 < 2 ^ (num.log2 + 1) * 2 ^ den.log2 :=
        mul_lt_mul_of_pos_right hnum (by positivity)
    _ ≤ 2 ^ (num.log2 + 1) * den := mul_le_mul_of_nonneg_left hden' (by positivity)

theorem two_zpow_log2_le (hnum : num ≠ 0) (hden : 0 < den) :
    2 ^ 52 * 2 ^ ((num.log2 : ℤ) - den.log2 - 53) ≤ (num : ℚ) / den := by
  have hnum' : (2 : ℚ) ^ num.log2 ≤ num := by exact_mod_cast Nat.log2_self_le hnum
  have hden' : (den : ℚ) < 2 ^ (den.log2 + 1) := by exact_mod_cast Nat.lt_log2_self
  have hpow : (2 : ℚ) ^ 52 * 2 ^ ((num.log2 : ℤ) - den.log2 - 53)
      = 2 ^ num.log2 / 2 ^ (den.log2 + 1) := by
    rw [← zpow_natCast, ← zpow_natCast, ← zpow_natCast, ← zpow_add₀ two_ne_zero,
      ← zpow_sub₀ two_ne_zero]
    congr 1
    omega
  rw [hpow, div_le_div_iff₀ (by positivity) (by exact_mod_cast hden)]
  calc (2 : ℚ) ^ num.log2 * den ≤ 2 ^ num.log2 * 2 ^ (den.log2 + 1) :=
        mul_le_mul_of_nonneg_left hden'.le (by positivity)
    _ ≤ num * 2 ^ (den.log2 + 1) := mul_le_mul_of_nonneg_right hnum' (by positivity)

/-- The exponent that is looked for. -/
theorem isExponent_exponentOf (hnum : num ≠ 0) (hden : 0 < den) :
    IsExponent ((num : ℚ) / den) (exponentOf num den) := by
  have hfits : ∀ e : ℤ, (scaleDown num den e).1 / (scaleDown num den e).2 < Nat.pow 2 53
      ↔ (num : ℚ) / den < 2 ^ 53 * 2 ^ e := by
    intro e
    obtain ⟨hpos, hvalue⟩ := scaleDown_div num hden e
    have hpos' : (0 : ℚ) < (scaleDown num den e).2 := by exact_mod_cast hpos
    rw [Nat.div_lt_iff_lt_mul hpos, ← div_lt_iff₀ (two_zpow_pos e), ← hvalue, div_lt_iff₀ hpos']
    exact_mod_cast Iff.rfl
  have hhigh := lt_two_zpow_log2 num hden
  have hlow := two_zpow_log2_le hnum hden
  generalize hg : (num.log2 : ℤ) - den.log2 - 53 = g at hhigh hlow
  have hguess : max (-1074) g = -1074 ∨ max (-1074) g = g := max_choice _ _
  have hle : g ≤ max (-1074) g := le_max_right _ _
  have hleast : -1074 ≤ max (-1074) g := le_max_left _ _
  rw [exponentOf, hg]
  simp only [decide_eq_true_eq, hfits]
  generalize max (-1074) g = guess at *
  have hnext : (2 : ℚ) ^ (guess + 1) = 2 * 2 ^ guess := by
    rw [zpow_add_one₀ two_ne_zero, mul_comm]
  split_ifs with hfirst hsecond
  · refine ⟨hleast, hfirst, fun hmore => ?_⟩
    rcases hguess with hguess | rfl
    · omega
    · exact hlow
  · refine ⟨by omega, hsecond, fun _ => ?_⟩
    rw [hnext]
    linarith
  · -- twice the power of the first guess is always enough
    have hpow := two_zpow_mono hle
    rw [hnext] at hsecond
    linarith

theorem exists_isExponent (hx : 0 < x) : ∃ e, IsExponent x e := by
  have hnum : x.num.toNat ≠ 0 := by
    have := Rat.num_pos.2 hx
    omega
  have h := isExponent_exponentOf hnum x.den_pos
  rw [num_div_den hx.le] at h
  exact ⟨_, h⟩

/-! ## Rounding -/

/-- The number of the format nearest to a number that is not negative, were there no largest. -/
def rounded (x : ℚ) : ℚ :=
  nearest (x / 2 ^ exponentOf x.num.toNat x.den) * 2 ^ exponentOf x.num.toNat x.den

theorem rounded_zero : rounded 0 = 0 := by
  rw [rounded, zero_div, ← Nat.cast_zero, nearest_natCast, Nat.cast_zero, zero_mul]

theorem rounded_nonneg (x : ℚ) : 0 ≤ rounded x :=
  mul_nonneg (Nat.cast_nonneg _) (two_zpow_pos _).le

theorem rounded_eq (hx : 0 < x) (h : IsExponent x e) :
    rounded x = nearest (x / 2 ^ e) * 2 ^ e := by
  have hnum : x.num.toNat ≠ 0 := by
    have := Rat.num_pos.2 hx
    omega
  have hown := isExponent_exponentOf hnum x.den_pos
  rw [num_div_den hx.le] at hown
  rw [rounded, hown.eq h]

/-- No number is rounded past the power of two above it. -/
theorem rounded_le_two_pow (hx : 0 < x) (h : IsExponent x e) : rounded x ≤ 2 ^ 53 * 2 ^ e := by
  have hle : x / 2 ^ e ≤ (2 ^ 53 : Nat) := by
    rw [div_le_iff₀ (two_zpow_pos e)]
    exact_mod_cast h.lt.le
  have hnearest := nearest_le (div_nonneg hx.le (two_zpow_pos e).le) hle
  rw [rounded_eq hx h]
  exact mul_le_mul_of_nonneg_right (by exact_mod_cast hnearest) (two_zpow_pos e).le

theorem two_pow_le_rounded (hx : 0 < x) (h : IsExponent x e) (he : -1074 < e) :
    2 ^ 52 * 2 ^ e ≤ rounded x := by
  have hle : ((2 ^ 52 : Nat) : ℚ) ≤ x / 2 ^ e := by
    rw [le_div_iff₀ (two_zpow_pos e)]
    exact_mod_cast h.le he
  rw [rounded_eq hx h]
  exact mul_le_mul_of_nonneg_right (by exact_mod_cast le_nearest hle) (two_zpow_pos e).le

theorem rounded_mono (hx : 0 ≤ x) (h : x ≤ y) : rounded x ≤ rounded y := by
  rcases hx.eq_or_lt with rfl | hpos
  · rw [rounded_zero]
    exact rounded_nonneg y
  · obtain ⟨e, he⟩ := exists_isExponent hpos
    obtain ⟨f, hf⟩ := exists_isExponent (hpos.trans_le h)
    rcases (he.mono hf h).eq_or_lt with rfl | hlt
    · rw [rounded_eq hpos he, rounded_eq (hpos.trans_le h) hf]
      refine mul_le_mul_of_nonneg_right ?_ (two_zpow_pos e).le
      have hscaled := div_le_div_of_nonneg_right h (two_zpow_pos e).le
      exact_mod_cast nearest_mono (div_nonneg hx (two_zpow_pos e).le) hscaled
    · have hstep : (2 : ℚ) ^ (e + 1) ≤ 2 ^ f := two_zpow_mono hlt
      rw [zpow_add_one₀ two_ne_zero] at hstep
      have hleft := rounded_le_two_pow hpos he
      have hright := two_pow_le_rounded (hpos.trans_le h) hf (by have := he.least; omega)
      linarith

/-- The numbers of the format are left as they are. -/
theorem rounded_format {m : Nat} (hm : m ≤ 2 ^ 53) (he : -1074 ≤ e) :
    rounded (m * 2 ^ e) = m * 2 ^ e := by
  rcases Nat.eq_zero_or_pos m with rfl | hpos
  · rw [Nat.cast_zero, zero_mul, rounded_zero]
  · have hx : (0 : ℚ) < m * 2 ^ e := mul_pos (by exact_mod_cast hpos) (two_zpow_pos e)
    obtain ⟨f, hf⟩ := exists_isExponent hx
    suffices h : ∃ n : Nat, (m * 2 ^ e : ℚ) / 2 ^ f = n by
      obtain ⟨n, hn⟩ := h
      rw [rounded_eq hx hf, hn, nearest_natCast, ← hn, div_mul_cancel₀ _ (two_zpow_pos f).ne']
    rcases le_or_gt f e with hle | hlt
    · refine ⟨m * 2 ^ (e - f).toNat, ?_⟩
      rw [mul_div_assoc, ← zpow_sub₀ two_ne_zero, Nat.cast_mul, Nat.cast_pow, Nat.cast_ofNat,
        ← zpow_natCast, Int.toNat_of_nonneg (by omega)]
    · -- only the power of two itself has an exponent above its own
      refine ⟨2 ^ 52, ?_⟩
      have hstep : (2 : ℚ) ^ (e + 1) ≤ 2 ^ f := two_zpow_mono hlt
      rw [zpow_add_one₀ two_ne_zero] at hstep
      have hhigh : (m : ℚ) * 2 ^ e ≤ 2 ^ 53 * 2 ^ e :=
        mul_le_mul_of_nonneg_right (by exact_mod_cast hm) (two_zpow_pos e).le
      have hlow := hf.le (by omega)
      rw [div_eq_iff (two_zpow_pos f).ne']
      push_cast
      linarith

theorem rounded_natCast {n : Nat} (hn : n ≤ 2 ^ 53) : rounded (n : ℚ) = n := by
  have h := rounded_format (e := 0) hn (by decide)
  rwa [zpow_zero, mul_one] at h

/-- Rounding once more changes nothing. -/
theorem rounded_rounded (hx : 0 ≤ x) : rounded (rounded x) = rounded x := by
  rcases hx.eq_or_lt with rfl | hpos
  · rw [rounded_zero, rounded_zero]
  · obtain ⟨e, he⟩ := exists_isExponent hpos
    have hle : x / 2 ^ e ≤ (2 ^ 53 : Nat) := by
      rw [div_le_iff₀ (two_zpow_pos e)]
      exact_mod_cast he.lt.le
    rw [rounded_eq hpos he]
    exact rounded_format (nearest_le (div_nonneg hx (two_zpow_pos e).le) hle) he.least

/-- What is added to a large number of the format is lost if it is less than one. -/
theorem rounded_add {r : ℚ} (hx : 2 ^ 53 ≤ x) (hrounded : rounded x = x) (hr : 0 ≤ r)
    (hless : r < 1) : rounded (x + r) = x := by
  have hpos : 0 < x := lt_of_lt_of_le (by norm_num) hx
  obtain ⟨e, he⟩ := exists_isExponent hpos
  have he0 : 0 < e := by
    by_contra hle
    have hpow : (2 : ℚ) ^ e ≤ 2 ^ (0 : ℤ) := two_zpow_mono (by omega)
    have := he.lt
    rw [zpow_zero] at hpow
    linarith
  have hpow : (2 : ℚ) ^ (1 : ℤ) ≤ 2 ^ e := two_zpow_mono he0
  rw [zpow_one] at hpow
  rw [rounded_eq hpos he] at hrounded
  generalize nearest (x / 2 ^ e) = n at hrounded
  have hlow := he.le (by omega)
  have hhigh := he.lt
  rw [← hrounded] at hhigh hlow ⊢
  have hn : n + 1 ≤ 2 ^ 53 := by
    have hlt : (n : ℚ) < 2 ^ 53 := lt_of_mul_lt_mul_right hhigh (two_zpow_pos e).le
    exact_mod_cast hlt
  have hn' : (n : ℚ) + 1 ≤ 2 ^ 53 := by exact_mod_cast hn
  have hnext : IsExponent (n * 2 ^ e + r) e := by
    refine ⟨he.least, ?_, fun _ => by linarith⟩
    have := mul_le_mul_of_nonneg_right hn' (two_zpow_pos e).le
    linarith
  have hquotient : (n * 2 ^ e + r) / 2 ^ e = n + r / 2 ^ e := by
    rw [add_div, mul_div_cancel_right₀ _ (two_zpow_pos e).ne']
  have hhalf : r / 2 ^ e < 1 / 2 := by
    rw [div_lt_iff₀ (two_zpow_pos e)]
    linarith
  have hr' : 0 ≤ r / 2 ^ e := div_nonneg hr (two_zpow_pos e).le
  have hnearest : nearest (n + r / 2 ^ e) = n :=
    Nat.le_antisymm (nearest_le_of_lt (by positivity) (by linarith)) (le_nearest (by linarith))
  rw [rounded_eq (by linarith) hnext, hquotient, hnearest]

/-! ## The range of spans -/

theorem rounded_lt_limit (hx : 0 ≤ x) (h : x < 2 ^ 64 - 2 ^ 10) :
    rounded x ≤ 2 ^ 64 - 2 ^ 11 := by
  rcases hx.eq_or_lt with rfl | hpos
  · rw [rounded_zero]
    norm_num
  · obtain ⟨e, he⟩ := exists_isExponent hpos
    have hmost : e ≤ 11 := by
      by_contra hmore
      have hpow : (2 : ℚ) ^ (12 : ℤ) ≤ 2 ^ e := two_zpow_mono (by omega)
      have := he.le (by omega)
      norm_num at hpow
      linarith
    rcases hmost.eq_or_lt with rfl | hless
    · have hscaled : x / 2 ^ (11 : ℤ) < (2 ^ 53 - 1 : Nat) + 1 / 2 := by
        rw [div_lt_iff₀ (two_zpow_pos 11)]
        norm_num
        linarith
      have hnearest := nearest_le_of_lt (div_nonneg hx (two_zpow_pos 11).le) hscaled
      have hcast : (nearest (x / 2 ^ (11 : ℤ)) : ℚ) ≤ 2 ^ 53 - 1 := by
        have : (nearest (x / 2 ^ (11 : ℤ)) : ℚ) ≤ (2 ^ 53 - 1 : Nat) := by exact_mod_cast hnearest
        rwa [Nat.cast_sub (by norm_num), Nat.cast_pow, Nat.cast_ofNat, Nat.cast_one] at this
      rw [rounded_eq hpos he]
      have := mul_le_mul_of_nonneg_right hcast (two_zpow_pos 11).le
      norm_num at this ⊢
      exact this
    · have hpow : (2 : ℚ) ^ e ≤ 2 ^ (10 : ℤ) := two_zpow_mono (by omega)
      have := rounded_le_two_pow hpos he
      norm_num at hpow
      linarith

theorem limit_le_rounded (h : 2 ^ 64 - 2 ^ 10 ≤ x) : 2 ^ 64 ≤ rounded x := by
  have hmiddle : rounded (2 ^ 64 - 2 ^ 10) = 2 ^ 64 := by
    have hexponent : IsExponent (2 ^ 64 - 2 ^ 10) 11 :=
      ⟨by decide, by norm_num, fun _ => by norm_num⟩
    have hscaled : ((2 : ℚ) ^ 64 - 2 ^ 10) / 2 ^ (11 : ℤ)
        = (18014398509481983 : Nat) / (2 : Nat) := by
      norm_num
    rw [rounded_eq (by norm_num) hexponent, hscaled, nearest_div _ Nat.two_pos]
    norm_num [roundDiv]
  rw [← hmiddle]
  exact rounded_mono (by norm_num) h

/-! ## What is computed -/

/-- A quotient is rounded to the number of the format nearest to it, or it is beyond all of
them. -/
theorem round_cases (num : Nat) (hden : 0 < den) (negative : Bool) :
    (∃ m e, round negative num den = .finite negative m e ∧
        (m : ℚ) * 2 ^ e = rounded ((num : ℚ) / den)) ∨
      round negative num den = .infinite negative ∧ 2 ^ 128 ≤ (num : ℚ) / den := by
  rcases Nat.eq_zero_or_pos num with rfl | hnum
  · refine Or.inl ⟨0, -1074, round_zero hden negative, ?_⟩
    rw [Nat.cast_zero, zero_div, rounded_zero, zero_mul]
  · have hx : (0 : ℚ) < num / den := div_pos (by exact_mod_cast hnum) (by exact_mod_cast hden)
    have he := isExponent_exponentOf (Nat.ne_of_gt hnum) hden
    rw [rounded_eq hx he, round]
    generalize exponentOf num den = e at he
    obtain ⟨hpos, hvalue⟩ := scaleDown_div num hden e
    rw [← hvalue, nearest_div _ hpos]
    simp only []
    generalize roundDiv (scaleDown num den e).1 (scaleDown num den e).2 = m
    have hbeyond : 971 ≤ e → (2 : ℚ) ^ 128 ≤ num / den := by
      intro hmany
      have hpow : (2 : ℚ) ^ (76 : ℤ) ≤ 2 ^ e := two_zpow_mono (by omega)
      have := he.le (by omega)
      norm_num at hpow
      linarith
    by_cases hfull : m = Nat.pow 2 53
    · rw [if_pos hfull]
      simp only []
      rw [if_neg (show ¬ Nat.pow 2 52 = 0 by decide)]
      split
      · next hmany => exact Or.inr ⟨rfl, hbeyond (by omega)⟩
      · refine Or.inl ⟨_, _, rfl, ?_⟩
        rw [hfull, zpow_add_one₀ two_ne_zero]
        norm_num
        ring
    · rw [if_neg hfull]
      simp only []
      split
      · next hmany => exact Or.inr ⟨rfl, hbeyond (by omega)⟩
      · split
        · next hzero =>
            refine Or.inl ⟨_, _, rfl, ?_⟩
            rw [hzero, Nat.cast_zero, zero_mul, zero_mul]
        · exact Or.inl ⟨m, e, rfl, rfl⟩

/-- The absolute value of a finite number. -/
def magnitude : Binary64 → ℚ
  | .finite _ m e => m * 2 ^ e
  | _ => 0

/-- A number that is a rational number and has no minus sign. -/
def Is (a : Binary64) (x : ℚ) : Prop := ∃ m e, a = .finite false m e ∧ (m : ℚ) * 2 ^ e = x

variable {a b : Binary64}

theorem Is.magnitude (h : a.Is x) : a.magnitude = x := by
  obtain ⟨m, e, rfl, hx⟩ := h
  exact hx

theorem Is.nonneg (h : a.Is x) : 0 ≤ x := by
  obtain ⟨m, e, rfl, rfl⟩ := h
  exact mul_nonneg (Nat.cast_nonneg m) (two_zpow_pos e).le

theorem is_round (hden : 0 < den) (h : (num : ℚ) / den < 2 ^ 128) :
    (round false num den).Is (rounded ((num : ℚ) / den)) := by
  rcases round_cases num hden false with hfinite | ⟨-, hbeyond⟩
  · exact hfinite
  · exact absurd hbeyond (not_le.2 h)

theorem is_ofNat {n : Nat} (h : (n : ℚ) < 2 ^ 128) : (ofNat n).Is (rounded n) := by
  have hone : (n : ℚ) / (1 : Nat) = n := by rw [Nat.cast_one, div_one]
  have hround := is_round Nat.one_pos (hone.symm ▸ h)
  rwa [hone] at hround

/-- The quotient of small numbers is rounded once. -/
theorem is_div (hden : 0 < den) (hnum53 : num < 9007199254740992)
    (hden53 : den < 9007199254740992) :
    ((ofNat num).div (ofNat den)).Is (rounded ((num : ℚ) / den)) := by
  have hnum' : (num : ℚ) < 9007199254740992 := by exact_mod_cast hnum53
  have hden' : (1 : ℚ) ≤ den := by exact_mod_cast hden
  rw [div_ofNat hden hnum53 hden53]
  refine is_round hden ?_
  have hle := div_le_self (Nat.cast_nonneg num) hden'
  linarith

theorem Is.addUnsigned (ha : a.Is x) (hb : b.Is y) (h : x + y < 2 ^ 128) :
    (a.addUnsigned b).Is (rounded (x + y)) := by
  obtain ⟨m, e, rfl, rfl⟩ := ha
  obtain ⟨n, f, rfl, rfl⟩ := hb
  obtain ⟨hp, hpvalue⟩ := fraction_div m e
  obtain ⟨hq, hqvalue⟩ := fraction_div n f
  have hp' : ((fraction m e).2 : ℚ) ≠ 0 := by exact_mod_cast hp.ne'
  have hq' : ((fraction n f).2 : ℚ) ≠ 0 := by exact_mod_cast hq.ne'
  have hvalue : ((addFractions m e n f).1 : ℚ) / (addFractions m e n f).2
      = m * 2 ^ e + n * 2 ^ f := by
    rw [← hpvalue, ← hqvalue, div_add_div _ _ hp' hq', addFractions]
    push_cast
    rw [mul_comm ((fraction m e).2 : ℚ) (fraction n f).1]
  rw [← hvalue] at h ⊢
  exact is_round (Nat.mul_pos hp hq) h

/-- The product is rounded once. -/
theorem Is.mul (ha : a.Is x) (hb : b.Is y) :
    ∃ num den : Nat, 0 < den ∧ (num : ℚ) / den = x * y ∧ a.mul b = round false num den := by
  obtain ⟨m, e, rfl, rfl⟩ := ha
  obtain ⟨n, f, rfl, rfl⟩ := hb
  obtain ⟨hpos, hvalue⟩ := fraction_div (m * n) (e + f)
  refine ⟨(fraction (m * n) (e + f)).1, (fraction (m * n) (e + f)).2, hpos, ?_, rfl⟩
  rw [hvalue, zpow_add₀ two_ne_zero, Nat.cast_mul]
  ring

end Binary64

end ChatArchive.Number
