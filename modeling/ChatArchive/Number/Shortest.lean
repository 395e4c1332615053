import ChatArchive.Number.Binary64
import ChatArchive.Text.Digits

/-!
# Writing binary floating point in decimal

The shortest decimal that reads back as the number: for one digit, two digits and so on up to
seventeen, the two neighbours of the number on that decimal grid are tried; the first grid with a
neighbour inside the interval of reals that round to the number wins, and of two such neighbours the
nearer one. `toFixed` is the other form, with a given number of places.
-/

namespace ChatArchive.Number

open ChatArchive.Text

namespace Binary64

/-- A decimal `digits * 10 ^ exponent`. -/
structure Decimal where
  digits : Nat
  exponent : Int
deriving DecidableEq, Repr

/-- The bounds of the reals that round to `m * 2 ^ e`, as multiples of `2 ^ (e - 2)`. The lower half
gap is smaller below a power of two. -/
def gapBounds (m : Nat) (e : Int) : Nat × Nat :=
  let low := if m = Nat.pow 2 52 ∧ -1074 < e then 4 * m - 1 else 4 * m - 2
  (low, 4 * m + 2)

/-- Compares `a * 10 ^ k` with `b * 2 ^ j`. -/
def compareScaled (a : Nat) (k : Int) (b : Nat) (j : Int) : Ordering :=
  let left := a * (if k < 0 then 1 else Nat.pow 10 k.natAbs) *
    (if j < 0 then Nat.pow 2 j.natAbs else 1)
  let right := b * (if j < 0 then 1 else Nat.pow 2 j.natAbs) *
    (if k < 0 then Nat.pow 10 k.natAbs else 1)
  compare left right

/-- Whether `a * 10 ^ k` rounds to `m * 2 ^ e`: strictly inside the bounds, or on one of them when
the significand is even. -/
def readsBack (m : Nat) (e : Int) (a : Nat) (k : Int) : Bool :=
  let (low, high) := gapBounds m e
  let inside (o : Ordering) (want : Ordering) : Bool := o = want || (o = .eq && m % 2 = 0)
  inside (compareScaled a k low (e - 2)) .gt && inside (compareScaled a k high (e - 2)) .lt

/-- The largest `d` with `10 ^ d ≤ p / q`, for a positive quotient. The guess from the binary
logarithm is at most one off. -/
def decimalOrder (p q : Nat) : Int :=
  let guess : Int := (((p.log2 : Int) - q.log2) * 30103 / 100000)
  let atLeast (d : Int) : Bool :=
    if d < 0 then q ≤ p * Nat.pow 10 d.natAbs else q * Nat.pow 10 d.natAbs ≤ p
  if atLeast (guess + 1) then guess + 1
  else if atLeast guess then guess
  else guess - 1

/-- The nearest neighbour of `m * 2 ^ e` on the grid of `10 ^ k` that reads back. -/
def neighbour? (m : Nat) (e k : Int) : Option Nat :=
  let (p, q) := fraction m e
  let (n, d) := if k < 0 then (p * Nat.pow 10 k.natAbs, q) else (p, q * Nat.pow 10 k.natAbs)
  let below := n / d
  let nearer := if 2 * (n % d) ≤ d then [below, below + 1] else [below + 1, below]
  nearer.find? fun a => 0 < a && readsBack m e a k

/-- The shortest decimal that reads back as the positive number `m * 2 ^ e`. -/
def shortest (m : Nat) (e : Int) : Decimal :=
  let (p, q) := fraction m e
  let order := decimalOrder p q
  let grids := (List.range 17).map fun (n : Nat) => order - n
  match grids.findSome? fun k => (neighbour? m e k).map fun a => (⟨a, k⟩ : Decimal) with
  | some d => d
  | none => ⟨0, 0⟩

/-- A decimal without trailing zeros in its digits. -/
def Decimal.normalize : (fuel : Nat) → Decimal → Decimal
  | 0, d => d
  | n + 1, d =>
    if d.digits ≠ 0 ∧ d.digits % 10 = 0 then normalize n ⟨d.digits / 10, d.exponent + 1⟩ else d

/-- Digits in positional notation while the point stands between five places before the first digit
and sixteen places after it, otherwise with an exponent; always recognisable as not an integer. -/
def Decimal.text (d : Decimal) : List Char :=
  let ds := Text.digits d.digits
  let point : Int := ds.length + d.exponent
  if 0 ≤ d.exponent ∧ point ≤ 16 then ds ++ List.replicate d.exponent.natAbs '0' ++ ['.', '0']
  else if 0 < point ∧ point ≤ 16 then ds.take point.natAbs ++ '.' :: ds.drop point.natAbs
  else if -5 < point ∧ point ≤ 0 then '0' :: '.' :: List.replicate point.natAbs '0' ++ ds
  else
    let lead := ds.take 1 ++ (if ds.length = 1 then [] else '.' :: ds.drop 1)
    lead ++ 'e' :: signedDigits (point - 1)

/-- The shortest text that reads back; none for infinities and the undefined number. -/
def text? : Binary64 → Option (List Char)
  | .finite s m e =>
    let body := if m = 0 then ['0', '.', '0'] else ((shortest m e).normalize 17).text
    some (if s then '-' :: body else body)
  | _ => none

/-- The number with a given number of decimal places, ties to the even digit. -/
def toFixed (places : Nat) : Binary64 → List Char
  | .finite s m e =>
    let (p, q) := fraction m e
    let n := roundDiv (p * Nat.pow 10 places) q
    let body := Text.digits (n / Nat.pow 10 places) ++
      (if places = 0 then [] else '.' :: fixedDigits places (n % Nat.pow 10 places))
    if s then '-' :: body else body
  | .infinite s => if s then "-inf".toList else "inf".toList
  | .nan => "NaN".toList

end Binary64

end ChatArchive.Number
