/-!
# Binary floating point

Numbers of the IEEE 754 binary64 format, held as sign, significand and exponent so that every
operation is integer arithmetic: the exact result is a quotient of natural numbers, and `round`
takes the nearest representable number, ties to the even significand.
-/

namespace ChatArchive.Number

/-- A binary64 number. A finite one is `significand * 2 ^ exponent`, negated if `negative`; `round`
only builds significands below 2^53 and exponents from -1074 on. -/
inductive Binary64
  | finite (negative : Bool) (significand : Nat) (exponent : Int)
  | infinite (negative : Bool)
  | nan
deriving DecidableEq, Repr

/-- `num / den` rounded to the nearest natural number, ties to even. -/
def roundDiv (num den : Nat) : Nat :=
  let q := num / den
  let r := num % den
  if 2 * r < den then q else if den < 2 * r then q + 1 else if q % 2 = 0 then q else q + 1

/-- Numerator and denominator of `num / den / 2 ^ e`. -/
def scaleDown (num den : Nat) (e : Int) : Nat × Nat :=
  if e < 0 then (num * Nat.pow 2 e.natAbs, den) else (num, den * Nat.pow 2 e.natAbs)

namespace Binary64

/-- Zero. -/
def zero : Binary64 := .finite false 0 (-1074)

/-- The exponent at which the integral part of `num / den / 2 ^ e` has 53 binary digits, or the
least exponent of the format if that is larger. The first guess is at most two too small. -/
def exponentOf (num den : Nat) : Int :=
  let least : Int := -1074
  let guess := max least ((num.log2 : Int) - den.log2 - 53)
  let fits (e : Int) : Bool :=
    let (n, d) := scaleDown num den e
    n / d < Nat.pow 2 53
  if fits guess then guess else if fits (guess + 1) then guess + 1 else guess + 2

/-- The number nearest to `num / den`, negated if `negative`. -/
def round (negative : Bool) (num den : Nat) : Binary64 :=
  let e := exponentOf num den
  let (n, d) := scaleDown num den e
  let m := roundDiv n d
  let (m, e) := if m = Nat.pow 2 53 then (Nat.pow 2 52, e + 1) else (m, e)
  if 971 < e then .infinite negative
  else if m = 0 then .finite negative 0 (-1074)
  else .finite negative m e

/-- A natural number, rounded. -/
def ofNat (n : Nat) : Binary64 := round false n 1

/-- An integer, rounded. -/
def ofInt (i : Int) : Binary64 := round (i < 0) i.natAbs 1

/-- Numerator and denominator of `m * 2 ^ e`. -/
def fraction (m : Nat) (e : Int) : Nat × Nat :=
  if e < 0 then (m, Nat.pow 2 e.natAbs) else (m * Nat.pow 2 e.natAbs, 1)

/-- The same number with the other sign. -/
def neg : Binary64 → Binary64
  | .finite s m e => .finite (!s) m e
  | .infinite s => .infinite (!s)
  | .nan => .nan

/-- The product. -/
def mul : Binary64 → Binary64 → Binary64
  | .finite s m e, .finite t n f =>
    let (p, q) := fraction (m * n) (e + f)
    round (s != t) p q
  | .nan, _ | _, .nan => .nan
  | .infinite s, .infinite t => .infinite (s != t)
  | .infinite s, .finite t m _ | .finite s m _, .infinite t =>
    if m = 0 then .nan else .infinite (s != t)

/-- The quotient. -/
def div : Binary64 → Binary64 → Binary64
  | .finite s m e, .finite t n f =>
    if n = 0 then if m = 0 then .nan else .infinite (s != t)
    else
      let (p, q) := fraction m (e - f)
      round (s != t) p (q * n)
  | .nan, _ | _, .nan => .nan
  | .infinite _, .infinite _ => .nan
  | .infinite s, .finite t _ _ => .infinite (s != t)
  | .finite s _ _, .infinite t => .finite (s != t) 0 (-1074)

/-- The sum of two numbers that are not negative, as a quotient of natural numbers. -/
def addFractions (m : Nat) (e : Int) (n : Nat) (f : Int) : Nat × Nat :=
  let (p, q) := fraction m e
  let (r, s) := fraction n f
  (p * s + r * q, q * s)

/-- The sum of two numbers that are not negative. -/
def addUnsigned : Binary64 → Binary64 → Binary64
  | .finite _ m e, .finite _ n f =>
    let (p, q) := addFractions m e n f
    round false p q
  | .nan, _ | _, .nan => .nan
  | .infinite s, _ | _, .infinite s => .infinite s

/-- Neither an infinity nor the undefined number. -/
def isFinite : Binary64 → Bool
  | .finite _ _ _ => true
  | _ => false

/-- Whether a number is at least one. -/
def atLeastOne : Binary64 → Bool
  | .finite false m e => let (p, q) := fraction m e; q ≤ p
  | .infinite false => true
  | _ => false

end Binary64

end ChatArchive.Number
