/-!
# The civil calendar

Days are counted from 1970-01-01 in the proleptic Gregorian calendar. `Date.toDays` adds up the
days before the year, before the month and in the month; `Date.ofDays` finds the year by an estimate
that is off by at most one and corrects it, so that both directions are plain integer arithmetic.
-/

namespace ChatArchive.Time

/-- Days from 0000-01-01 to 1970-01-01. -/
def epochDay : Int := 719528

/-- Days from 0000-01-01 to the first day of year `y`. -/
def daysBeforeYear (y : Int) : Int :=
  365 * y + (y + 3) / 4 - (y + 99) / 100 + (y + 399) / 400

/-- Every fourth year is a leap year, except the centuries not divisible by 400. -/
def isLeapYear (y : Int) : Bool :=
  y % 4 = 0 && (y % 100 != 0 || y % 400 = 0)

/-- The lengths of the twelve months. -/
def monthLengths (leap : Bool) : List Nat :=
  [31, if leap then 29 else 28, 31, 30, 31, 30, 31, 31, 30, 31, 30, 31]

/-- The days of some months together. -/
def daysOf : List Nat → Nat
  | [] => 0
  | length :: lengths => length + daysOf lengths

/-- The length of a month; zero for a month that does not exist. -/
def daysInMonth (y : Int) (month : Nat) : Nat :=
  if month = 0 then 0 else (monthLengths (isLeapYear y)).getD (month - 1) 0

/-- A calendar date. Not every value is a real one: see `Date.IsValid`. -/
structure Date where
  year : Int
  month : Nat
  day : Nat
deriving DecidableEq, Repr

namespace Date

/-- The month and the day exist in the year. -/
def IsValid (d : Date) : Prop :=
  1 ≤ d.day ∧ d.day ≤ daysInMonth d.year d.month

instance (d : Date) : Decidable d.IsValid := inferInstanceAs (Decidable (_ ∧ _))

/-- Days since 1970-01-01. -/
def toDays (d : Date) : Int :=
  daysBeforeYear d.year - epochDay
    + daysOf ((monthLengths (isLeapYear d.year)).take (d.month - 1)) + (d.day - 1 : Nat)

/-- The year that holds the day `n` days after 0000-01-01. -/
def yearOfDay (n : Int) : Int :=
  let y := 400 * n / 146097
  if n < daysBeforeYear y then y - 1
  else if daysBeforeYear (y + 1) ≤ n then y + 1
  else y

/-- The month and day reached after `rest` days, walking through month lengths from `month`. -/
def monthAndDay : (lengths : List Nat) → (month rest : Nat) → Nat × Nat
  | [], month, rest => (month, rest + 1)
  | l :: ls, month, rest =>
    if rest < l then (month, rest + 1) else monthAndDay ls (month + 1) (rest - l)

/-- The date a number of days after 1970-01-01. -/
def ofDays (days : Int) : Date :=
  let n := days + epochDay
  let y := yearOfDay n
  let md := monthAndDay (monthLengths (isLeapYear y)) 1 (n - daysBeforeYear y).toNat
  ⟨y, md.1, md.2⟩

end Date

end ChatArchive.Time
