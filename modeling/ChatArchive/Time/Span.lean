/-!
# Spans of time

A `Span` is a length of time in nanoseconds, at most 2^64 seconds long. Every operation that could
leave that range says so by returning an option.
-/

namespace ChatArchive.Time

/-- The first length that is too long: 2^64 seconds, in nanoseconds. -/
def spanLimit : Nat := 18446744073709551616000000000

/-- A length of time. -/
structure Span where
  nanos : Nat
  lt_limit : nanos < spanLimit
deriving DecidableEq

namespace Span

/-- No time at all. -/
def zero : Span := ⟨0, by decide⟩

instance : Inhabited Span := ⟨zero⟩

/-- The span of this many nanoseconds, if it is not too long. -/
def ofNanos? (n : Nat) : Option Span := if h : n < spanLimit then some ⟨n, h⟩ else none

/-- A number of milliseconds. -/
def ofMillis (ms : UInt64) : Span :=
  ⟨ms.toNat * 1000000, by have := ms.toNat_lt; unfold spanLimit; omega⟩

/-- A number of seconds. -/
def ofSecs (s : UInt64) : Span :=
  ⟨s.toNat * 1000000000, by have := s.toNat_lt; unfold spanLimit; omega⟩

/-- Whole seconds. -/
def secs (s : Span) : Nat := s.nanos / 1000000000

/-- Nanoseconds past the last whole second. -/
def subsecNanos (s : Span) : Nat := s.nanos % 1000000000

/-- Whole milliseconds. -/
def millis (s : Span) : Nat := s.nanos / 1000000

/-- The shorter of two spans. -/
def min (a b : Span) : Span := if a.nanos ≤ b.nanos then a else b

/-- The longer of two spans. -/
def max (a b : Span) : Span := if a.nanos ≤ b.nanos then b else a

/-- The sum, if it is not too long. -/
def add? (a b : Span) : Option Span := ofNanos? (a.nanos + b.nanos)

/-- The sum of a list, if no partial sum is too long. -/
def sum? (spans : List Span) : Option Span := spans.foldlM add? zero

end Span

end ChatArchive.Time
