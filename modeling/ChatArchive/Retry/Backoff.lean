import ChatArchive.Config.Settings
import ChatArchive.Number.Scale

/-!
# Pauses between attempts

The first pause is the policy's initial delay, every further one the last pause multiplied, and none
is longer than the policy's maximum.
-/

namespace ChatArchive.RetryPolicy

open Number Time

/-- The longest pause. -/
def maxDelay (p : RetryPolicy) : Span := .ofMillis p.maxDelayMs

/-- The first pause. -/
def firstDelay (p : RetryPolicy) : Span := (Span.ofMillis p.initialDelayMs).min p.maxDelay

/-- The factor between pauses: the multiplier, or one if it is smaller or not a number to multiply
by. -/
def factor (p : RetryPolicy) : Binary64 :=
  if p.multiplier.isFinite && p.multiplier.atLeastOne then p.multiplier else Binary64.ofNat 1

/-- The pause after a pause. The product is formed before it is cut to the maximum; none if it is
too long for a span. -/
def nextDelay? (p : RetryPolicy) (delay : Span) : Option Span :=
  (delay.scale? p.factor).map (·.min p.maxDelay)

/-- The number of attempts that are made at most; never none. -/
def attemptLimit (p : RetryPolicy) : Nat := max p.maxAttempts.toNat 1

/-- A pause and the `count` pauses after it. -/
def delaysFrom? (p : RetryPolicy) : (count : Nat) → Span → Option (List Span)
  | 0, delay => some [delay]
  | count + 1, delay => do
    let following ← p.nextDelay? delay
    let rest ← p.delaysFrom? count following
    some (delay :: rest)

end ChatArchive.RetryPolicy
