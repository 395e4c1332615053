import ChatArchive.Number.Binary64
import ChatArchive.Time.Span

/-!
# Scaling spans of time

A span is multiplied by a binary64 number in seconds: the span becomes the rounded sum of its whole
seconds and its nanoseconds divided by 10^9, the product is rounded once more, and the result is
taken back to the nearest nanosecond, ties to even. A product of 2^64 seconds or more has no span.
-/

namespace ChatArchive.Time.Span

open ChatArchive.Number

/-- The span in seconds, as a binary64 number. -/
def seconds (s : Span) : Binary64 :=
  (Binary64.ofNat s.secs).addUnsigned
    ((Binary64.ofNat s.subsecNanos).div (Binary64.ofNat 1000000000))

/-- The span of a number of seconds: none if the number is negative, not finite or 2^64 or more. -/
def ofSeconds? : Binary64 → Option Span
  | .finite s m e =>
    if s && m != 0 then none
    else
      let (p, q) := Binary64.fraction m e
      if 18446744073709551616 * q ≤ p then none else ofNanos? (roundDiv (p * 1000000000) q)
  | _ => none

/-- The span multiplied by a number, if the product is a span. -/
def scale? (s : Span) (factor : Binary64) : Option Span := ofSeconds? (factor.mul s.seconds)

end ChatArchive.Time.Span
