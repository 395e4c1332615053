import ChatArchive.Number.Binary64

/-!
# Reading decimals as binary floating point

`ofDecimal` rounds `digits * 10 ^ exponent` once, to the nearest number. `ofScaled?` is the form
that JSON numbers are read in: the digits are rounded first and the power of ten is applied to the
rounded number, in steps of at most 10^308, so that the last bit can differ from `ofDecimal`.
-/

namespace ChatArchive.Number.Binary64

/-- `digits * 10 ^ exponent`, rounded to the nearest number. Exponents far outside the format are
cut off first, which changes nothing: the result is zero or infinite either way. -/
def ofDecimal (negative : Bool) (digits : Nat) (exponent : Int) : Binary64 :=
  if digits = 0 then .finite negative 0 (-1074)
  else if 400 < exponent then .infinite negative
  else if exponent < -(400 + (digits.log2 : Int)) then .finite negative 0 (-1074)
  else if exponent < 0 then round negative digits (Nat.pow 10 exponent.natAbs)
  else round negative (digits * Nat.pow 10 exponent.natAbs) 1

/-- A power of ten, rounded. -/
def powerOfTen (n : Nat) : Binary64 := ofNat (Nat.pow 10 n)

/-- Divides by 10^308 until at most that power of ten is left to divide by. -/
def scaleByTens : (fuel : Nat) → Binary64 → Int → Option Binary64
  | 0, _, _ => none
  | fuel + 1, f, exponent =>
    if exponent.natAbs ≤ 308 then
      if 0 ≤ exponent then
        let g := f.mul (powerOfTen exponent.natAbs)
        if g.isFinite then some g else none
      else some (f.div (powerOfTen exponent.natAbs))
    else if f = zero then some f
    else if 0 ≤ exponent then none
    else scaleByTens fuel (f.div (powerOfTen 308)) (exponent + 308)

/-- The number with these digits and this power of ten, the digits being rounded before they are
scaled; none if it is too large. After three divisions by 10^308 nothing is left to scale. -/
def ofScaled? (negative : Bool) (digits : Nat) (exponent : Int) : Option Binary64 :=
  (scaleByTens 5 (ofNat digits) exponent).map fun f => if negative then f.neg else f

end ChatArchive.Number.Binary64
