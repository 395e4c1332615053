import ChatArchive.Retry.Basic

/-!
# Rehearsals

A retried operation played on a virtual clock that counts milliseconds and jumps from one timer to
the next. A script says how long each attempt takes and how it ends; the last entry repeats. When
the operation's time ends at the same instant as an attempt or a pause, the end of the time counts.
-/

namespace ChatArchive.Retry

open Time

/-- One attempt of a script: it may first cancel the operation, then take some time, then succeed or
fail. An attempt without a duration completes at once. -/
structure ScriptedAttempt (α : Type) where
  cancels : Bool
  duration : Option Nat
  result : Except String α

/-- The state of a rehearsal: the clock, the attempts to come, the time at which the operation is
cancelled from outside, whether it has cancelled itself, its deadline, and what has happened. -/
structure Rehearsal (α : Type) where
  now : Nat
  script : List (ScriptedAttempt α)
  cancelAt : Option Nat
  cancelled : Bool
  deadline : Nat
  callTimes : List Nat
  events : List Event

namespace Rehearsal

variable {α : Type}

/-- The first instant from now on at which the operation's time is over, and why. Cancellation
counts before the deadline. -/
def finish (r : Rehearsal α) : Nat × CancelReason :=
  let cancelTime : Option Nat := if r.cancelled then some r.now else r.cancelAt.map (max r.now)
  let deadline := max r.now r.deadline
  match cancelTime with
  | some t => if t ≤ deadline then (t, .cancelled) else (deadline, .deadlineExceeded)
  | none => (deadline, .deadlineExceeded)

/-- Waits for a number of milliseconds, or until the operation's time is over. -/
def waitFor (r : Rehearsal α) (ms : Nat) : Option CancelReason × Rehearsal α :=
  let (time, reason) := r.finish
  if time ≤ r.now + ms then (some reason, { r with now := time })
  else (none, { r with now := r.now + ms })

/-- The attempt that is due, and the script after it. -/
def nextAttempt : List (ScriptedAttempt α) → Option (ScriptedAttempt α × List (ScriptedAttempt α))
  | [] => none
  | [a] => some (a, [a])
  | a :: b :: rest => some (a, b :: rest)

/-- Makes the attempt that is due. It counts as called even if the operation's time is over, but
then nothing of it is played. A script without attempts is over at once. -/
def attempt (r : Rehearsal α) : Except CancelReason (Except String α) × Rehearsal α :=
  let (time, reason) := r.finish
  let r := { r with callTimes := r.callTimes ++ [r.now] }
  if time ≤ r.now then (.error reason, r)
  else
    match nextAttempt r.script with
    | none => (.error .cancelled, r)
    | some (a, script) =>
      let r := { r with
        script := script
        cancelled := r.cancelled || a.cancels }
      match a.duration with
      | none | some 0 => (.ok a.result, r)
      | some ms =>
        match r.waitFor ms with
        | (some reason, r) => (.error reason, r)
        | (none, r) => (.ok a.result, r)

/-- A rehearsal as the surroundings of a retried operation. -/
def surroundings : Surroundings (Rehearsal α) String α where
  attempt := attempt
  pause delay r := r.waitFor (timerMillis delay)
  report event r := { r with events := r.events ++ [event] }

end Rehearsal

end ChatArchive.Retry
