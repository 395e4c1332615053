import ChatArchive.Time.Civil

/-!
# Instants

A `Timestamp` is a UTC instant with nanosecond precision: a count of seconds since 1970 and a
nanosecond part. The nanosecond part may run up to two seconds in the last second of a minute, which
is how a leap second (second 60) is held. Instants order by second, then by nanosecond part, so a
leap second lies between its minute's last second and the next minute.
-/

namespace ChatArchive.Time

/-- The first second of year -262143, the earliest that a timestamp can hold. -/
def minSecond : Int := -8334601228800

/-- The last second of year 262142, the latest that a timestamp can hold. -/
def maxSecond : Int := 8210266876799

/-- A nanosecond part fits its second: below one second, or below two in a leap second. -/
def NanosFit (second : Int) (nanos : Nat) : Prop :=
  nanos < 1000000000 ∨ (nanos < 2000000000 ∧ second % 60 = 59)

instance (second : Int) (nanos : Nat) : Decidable (NanosFit second nanos) :=
  inferInstanceAs (Decidable (_ ∨ _))

/-- A UTC instant. -/
structure Timestamp where
  second : Int
  nanos : Nat
  nanos_fit : NanosFit second nanos
  min_le : minSecond ≤ second
  le_max : second ≤ maxSecond
deriving DecidableEq

namespace Timestamp

/-- 1970-01-01T00:00:00Z. -/
def epoch : Timestamp := ⟨0, 0, by decide, by decide, by decide⟩

instance : Inhabited Timestamp := ⟨epoch⟩

/-- The instant with these parts, if they are in range. -/
def ofParts? (second : Int) (nanos : Nat) : Option Timestamp :=
  if h : NanosFit second nanos ∧ minSecond ≤ second ∧ second ≤ maxSecond then
    some ⟨second, nanos, h.1, h.2.1, h.2.2⟩
  else none

/-- Seconds first, nanosecond part second. -/
def lt (a b : Timestamp) : Prop :=
  a.second < b.second ∨ (a.second = b.second ∧ a.nanos < b.nanos)

instance : LT Timestamp := ⟨lt⟩

instance : LE Timestamp := ⟨fun a b => ¬ b < a⟩

instance (a b : Timestamp) : Decidable (a < b) := inferInstanceAs (Decidable (_ ∨ _))

instance (a b : Timestamp) : Decidable (a ≤ b) := inferInstanceAs (Decidable (¬ _))

/-- The calendar day of the instant, in days since 1970-01-01. -/
def dayNumber (t : Timestamp) : Int := t.second / 86400

/-- The calendar date of the instant. -/
def date (t : Timestamp) : Date := Date.ofDays t.dayNumber

/-- Seconds since midnight. -/
def secondOfDay (t : Timestamp) : Nat := (t.second % 86400).toNat

/-- Hour of the day. -/
def hour (t : Timestamp) : Nat := t.secondOfDay / 3600

/-- Minute of the hour. -/
def minute (t : Timestamp) : Nat := t.secondOfDay / 60 % 60

/-- Second of the minute; 60 in a leap second. -/
def secondOfMinute (t : Timestamp) : Nat :=
  t.secondOfDay % 60 + t.nanos / 1000000000

/-- The fraction of the second, in nanoseconds. -/
def fraction (t : Timestamp) : Nat := t.nanos % 1000000000

/-- The instant a local date and time of day denote `offset` seconds east of UTC, if it is in range.
-/
def ofCivil? (date : Date) (secondOfDay nanos : Nat) (offset : Int) : Option Timestamp :=
  ofParts? (date.toDays * 86400 + secondOfDay - offset) nanos

/-- Length of the interval from `a` to `b` in nanoseconds. Time of day decides how a leap second
counts: one at the start counts in full when the end lies later in the day, and one at the end is
taken off again when the end lies earlier in the day. -/
def nanosUntil (a b : Timestamp) : Int :=
  let leap (t : Timestamp) : Int := if 1000000000 ≤ t.nanos then 1 else 0
  let adjust : Int :=
    if a.secondOfDay < b.secondOfDay then leap a
    else if b.secondOfDay < a.secondOfDay then - leap b
    else 0
  (b.second - a.second + adjust) * 1000000000 + ((b.nanos : Int) - a.nanos)

/-- Whole seconds from `a` to `b`, rounded toward zero. -/
def secondsUntil (a b : Timestamp) : Int := (a.nanosUntil b).tdiv 1000000000

end Timestamp

end ChatArchive.Time
