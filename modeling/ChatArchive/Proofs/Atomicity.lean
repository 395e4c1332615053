import ChatArchive.Proofs.Outcomes
import ChatArchive.Proofs.Runs

/-!
# Failed writes leave no trace

Creating and updating a session and adding a message are one transaction each. What
makes a failure harmless is where things stand: everything that can fail comes before
the transaction or is the transaction itself, each attempt of which meets the same
rows, and the counters move only after it. So whatever has gone wrong, and however
often it was tried, all that differs afterwards are the nonces that are left.

Ending a session is not among these operations. Its end and its duration are written
apart, and an end that was recorded stays although the operation fails.
-/

namespace ChatArchive

open Time

/-- An operation that writes in a single transaction. -/
def Operation.IsAtomic : Operation → Prop
  | .create _ | .update _ | .addMessage _ _ => True
  | _ => False

namespace Store

variable {s t : Store} {now : Timestamp} {operation : Operation} {e : Abort}

theorem failed_of_either {x : Action Unit}
    (heither : (∃ t', s.perform x = (.ok (), t')) ∨ ∃ e nonces events,
      s.perform x = (.error e, { s with nonces := nonces, events := events }))
    (h : s.perform (do x; pure Answer.nothing) = (.error e, t)) :
    ∃ nonces events, t = { s with nonces := nonces, events := events } := by
  rcases heither with ⟨t', hdone⟩ | ⟨e', nonces, events, hfailed⟩
  · rw [perform_bind_ok hdone] at h
    cases h
  · rw [perform_bind_error hfailed] at h
    cases h
    exact ⟨nonces, events, rfl⟩

theorem perform_failed (hatomic : operation.IsAtomic)
    (h : s.perform (run now operation) = (.error e, t)) :
    ∃ nonces events, t = { s with nonces := nonces, events := events } := by
  cases operation with
  | create session =>
      refine failed_of_either ((perform_create now session s).imp_left ?_) h
      rintro ⟨stored, pauses, table, nonces, events, -, -, -, hdone⟩
      exact ⟨_, hdone⟩
  | update session =>
      refine failed_of_either ((perform_update now session s).imp_left ?_) h
      rintro ⟨stored, ended, pauses, table, nonces, events, -, -, -, hdone⟩
      exact ⟨_, hdone⟩
  | addMessage id message =>
      refine failed_of_either ((perform_addMessage now id message s).imp_left ?_) h
      rintro ⟨stored, n, pauses, table, nonces, events, -, -, hdone⟩
      exact ⟨_, hdone⟩
  | _ => exact absurd hatomic id

/-- If creating or updating a session or adding a message fails, in whatever state the
store and its table are, then every row, the counters and all else but the nonces are as
before. -/
theorem failed_write_leaves_no_trace (s : Store) (now : Timestamp) (operation : Operation)
    (hatomic : operation.IsAtomic) (e : Abort) (h : (s.step now operation).1 = .error e) :
    ∃ nonces, (s.step now operation).2.1 = { s with nonces := nonces, events := [] } := by
  have hfailed : { s with events := [] }.perform (run now operation)
      = (.error e, ({ s with events := [] }.perform (run now operation)).2) := Prod.ext h rfl
  obtain ⟨nonces, events, hstore⟩ := perform_failed hatomic hfailed
  refine ⟨nonces, ?_⟩
  show { ({ s with events := [] }.perform (run now operation)).2 with events := [] } = _
  rw [hstore]

/-- Why an operation has failed, if it has. -/
def failure? : Except Abort Answer → Option Abort
  | .error e => some e
  | .ok _ => none

theorem eq_error_of_failure? {answer : Except Abort Answer} (h : failure? answer = some e) :
    answer = .error e := by
  cases answer with
  | error e' => cases h; rfl
  | ok a => cases h

/-- A store with an active session whose end cannot be set, for a reason that is worth
another attempt. -/
def lockedEnd : Store := (fresh .standard (.ofKey (List.replicate 16 7)) (.counting 0)).after [
  ⟨.epoch, .create { Session.start "a" "u" .epoch with
    messages := [.plain .user "hello" .epoch] }⟩,
  ⟨.epoch, .refuse ⟨.updatesOf "endTs", "database is locked"⟩⟩]

/-- An update of the session with another name and with an end. -/
def renamedAndEnded : Operation := .update { Session.start "a" "u" .epoch with
  name := "other", messages := [.plain .user "hello" .epoch], endTime := some .epoch }

/-- The first statement of the update sets the name, the second is refused three
times. -/
theorem failed_write_of_lockedEnd :
    (lockedEnd.step .epoch renamedAndEnded).1 = .error (.failed (.retryExhausted 3
      "store error: error returned from database: (code: 1811) database is locked")) ∧
    ∃ nonces, (lockedEnd.step .epoch renamedAndEnded).2.1
      = { lockedEnd with nonces := nonces, events := [] } := by
  have h : (lockedEnd.step .epoch renamedAndEnded).1 = .error (.failed (.retryExhausted 3
      "store error: error returned from database: (code: 1811) database is locked")) :=
    eq_error_of_failure? (by decide +kernel)
  exact ⟨h, failed_write_leaves_no_trace lockedEnd .epoch renamedAndEnded trivial _ h⟩

end Store

end ChatArchive
