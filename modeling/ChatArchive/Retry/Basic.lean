import ChatArchive.Retry.Backoff
import ChatArchive.Retry.Event
import ChatArchive.Store.Error

/-!
# Retrying

An operation is attempted until it succeeds, fails in a way that another attempt cannot help, has
used up its attempts, or is called off. The loop is written over the surroundings it works in: how
an attempt is made, how a pause is kept and where events go. The store and the virtual clock are two
of them.
-/

namespace ChatArchive.Retry

open Time

/-- Why an operation failed although it was retried. -/
inductive Failure (ε : Type)
  | permanent (error : ε)
  | exhausted (attempts : Nat) (last : ε)
  | cancelled (operation : String) (attempts : Nat) (reason : CancelReason)
deriving DecidableEq, Repr

/-- The wording of a failure. -/
def Failure.message {ε : Type} (text : ε → String) : Failure ε → String
  | .permanent e => text e
  | .exhausted n e => "operation failed after " ++ toString n ++ " attempts: " ++ text e
  | .cancelled operation n reason =>
    operation ++ " cancelled during retry after " ++ toString n ++ " attempt(s): " ++ reason.message

/-- How a retried operation ended. A pause that is too long for a span ends the program. -/
inductive Outcome (ε α : Type)
  | done (value : α)
  | failed (failure : Failure ε)
  | overflow
deriving Repr

/-- What an operation is attempted in, with a state that attempts and pauses change. An attempt or a
pause may be interrupted by the end of the operation's time. -/
structure Surroundings (σ ε α : Type) where
  attempt : σ → Except CancelReason (Except ε α) × σ
  pause : Span → σ → Option CancelReason × σ
  report : Event → σ → σ

/-- Milliseconds that a timer takes for a span: it fires on whole milliseconds, and a wait that
would end within one ends at the next. -/
def timerMillis (s : Span) : Nat := (s.nanos + 999999) / 1000000

/-- The event that announces another attempt. -/
def retryEvent (operation : String) (attempt limit : Nat) (delay : Span) (error : String) :
    Event where
  level := .warning
  message := "store operation failed, retrying"
  values := [
    ("operation", .text operation),
    ("attempt", .number attempt),
    ("max_attempts", .number limit),
    ("delay_ms", .number (delay.millis % 18446744073709551616 : Nat)),
    ("error", .text error)]

/-- What is retried, and how. -/
structure Plan (ε : Type) where
  policy : RetryPolicy
  operation : String
  isTransient : ε → Bool
  text : ε → String

/-- Attempts until one settles the operation: `left` more may follow this one, `made` have been
made, and `delay` is the pause before the next. -/
def attemptFrom {σ ε α : Type} (plan : Plan ε) (world : Surroundings σ ε α) (left made : Nat)
    (delay : Span) (s : σ) : Outcome ε α × σ :=
  match world.attempt s with
  | (.error reason, s) => (.failed (.cancelled plan.operation made reason), s)
  | (.ok (.ok a), s) => (.done a, s)
  | (.ok (.error e), s) =>
    if !plan.isTransient e then (.failed (.permanent e), s)
    else
      match left with
      | 0 => (.failed (.exhausted (made + 1) e), s)
      | left + 1 =>
        let event :=
          retryEvent plan.operation (made + 1) plan.policy.attemptLimit delay (plan.text e)
        match world.pause delay (world.report event s) with
        | (some reason, s) => (.failed (.cancelled plan.operation (made + 1) reason), s)
        | (none, s) =>
          match plan.policy.nextDelay? delay with
          | none => (.overflow, s)
          | some delay => attemptFrom plan world left (made + 1) delay s

/-- Runs an operation to its end. -/
def run {σ ε α : Type} (plan : Plan ε) (world : Surroundings σ ε α) (s : σ) : Outcome ε α × σ :=
  attemptFrom plan world (plan.policy.attemptLimit - 1) 0 plan.policy.firstDelay s

end ChatArchive.Retry
