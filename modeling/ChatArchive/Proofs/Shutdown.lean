import ChatArchive.Proofs.Atomicity
import ChatArchive.Proofs.Attempts
import ChatArchive.Proofs.Durations
import ChatArchive.Proofs.Presence

/-!
# After the shutdown

A store that was shut down starts no statement any more. Operations still look at their
arguments and encrypt what they bring, and tell of what is wrong with these first; everything
else is answered that the operation was cancelled. Neither depends on the table, no attempt is
made, and nothing changes but the nonces that were drawn. As there is no way back, this holds
from the shutdown on.

Looking at the arguments includes adding up response times. If these are too long together
the program ends there, before and after a shutdown.
-/

namespace ChatArchive

open Cipher Time

namespace Store

variable {s t : Store} {now : Timestamp} {operation : Operation} {name : String}

/-- The answer of an operation that is called on a store that was shut down: what is wrong with
its arguments, or else that it was cancelled. -/
def refusalOf (cipher : ContentCipher) (operation : Operation) (name : String) : Abort :=
  (operation.fault? cipher).getD (.failed (.cancelled name .cancelled))

/-- A store that has been shut down since it was in a state, and still is as it was then. What is
called on it fails without an attempt, whatever its table is. -/
structure Frozen (s t : Store) : Prop where
  rows : t.table.rows = s.table.rows
  counters : t.counters = s.counters
  refuses : ∀ now operation name, operation.name? = some name →
    t.attemptsOf now operation = 0 ∧
    ∀ table, ∃ nonces, step { t with table := table } now operation
      = (.error (refusalOf t.cipher operation name),
        { t with table := table, nonces := nonces, events := [] }, [])
  returns : ∀ now operation name, operation.name? = some name →
    ((∃ e, (t.step now operation).1 = .error (.failed e)) ↔ operation.Measured)

/-! ## Arguments -/

theorem session_fault?_eq_overflow {cipher : ContentCipher} {session : Session} :
    session.fault? cipher = some .overflow ↔
      ¬ (responseFigures session.responseTimes).isSome := by
  rw [Session.fault?, Bool.not_eq_true, Option.isSome_eq_false_iff]
  split
  · next hnone => exact iff_of_true rfl hnone
  · next hsome =>
      refine iff_of_false ?_ hsome
      split
      · exact fun h => (by cases h)
      · cases session.invalid? with
        | none => exact fun h => (by cases h)
        | some e => exact fun h => (by cases h)

theorem idFault?_ne_overflow (id : String) : idFault? id ≠ some .overflow := by
  rw [idFault?]
  split
  · exact fun h => (by cases h)
  · exact fun h => (by cases h)

theorem rangeFault?_ne_overflow (start finish : Timestamp) :
    rangeFault? start finish ≠ some .overflow := by
  rw [rangeFault?]
  split
  · exact fun h => (by cases h)
  · exact fun h => (by cases h)

/-- What ends the program is that response times have no figures. -/
theorem fault?_eq_overflow (cipher : ContentCipher) (operation : Operation) :
    operation.fault? cipher = some .overflow ↔ ¬ operation.Measured := by
  cases operation with
  | create session => exact session_fault?_eq_overflow
  | update session => exact session_fault?_eq_overflow
  | get id => exact iff_of_false (idFault?_ne_overflow id) (not_not_intro trivial)
  | finish id time => exact iff_of_false (idFault?_ne_overflow id) (not_not_intro trivial)
  | addMessage id message =>
      refine iff_of_false (fun h => ?_) (not_not_intro trivial)
      rcases Option.or_eq_some_iff.1 h with h | ⟨-, h⟩
      · exact idFault?_ne_overflow id h
      · obtain ⟨e, -, he⟩ := Option.map_eq_some_iff.1 h
        cases he
  | listUser userId limit =>
      refine iff_of_false ?_ (not_not_intro trivial)
      rw [Operation.fault?]
      split
      · exact fun h => (by cases h)
      · exact fun h => (by cases h)
  | list q =>
      refine iff_of_false ?_ (not_not_intro trivial)
      rw [Operation.fault?]
      split
      · exact rangeFault?_ne_overflow _ _
      · exact fun h => (by cases h)
  | metrics start finish =>
      exact iff_of_false (rangeFault?_ne_overflow start finish) (not_not_intro trivial)
  | tokens start finish =>
      exact iff_of_false (rangeFault?_ne_overflow start finish) (not_not_intro trivial)
  | _ => exact iff_of_false (fun h => (by cases h)) (not_not_intro trivial)

/-- An operation that was cancelled or has a bad argument returns, unless response times have no
figures. -/
theorem refusalOf_failed_iff (cipher : ContentCipher) (operation : Operation) (name : String) :
    (∃ e, refusalOf cipher operation name = .failed e) ↔ operation.Measured := by
  rw [← not_iff_not, ← fault?_eq_overflow cipher operation, refusalOf]
  cases operation.fault? cipher with
  | none => exact iff_of_false (fun h => h ⟨_, rfl⟩) (fun h => (by cases h))
  | some a =>
      cases a with
      | failed e => exact iff_of_false (fun h => h ⟨e, rfl⟩) (fun h => (by cases h))
      | overflow => exact iff_of_true (fun ⟨e, h⟩ => (by cases h)) rfl

/-! ## One operation -/

/-- An operation on a store that was shut down fails without an attempt. -/
theorem step_closed (hclosed : s.closed = true) (now : Timestamp)
    (hname : operation.name? = some name) :
    s.attemptsOf now operation = 0 ∧
      ∃ nonces, s.step now operation
        = (.error (refusalOf s.cipher operation name), { s with nonces := nonces, events := [] },
            []) := by
  cases requested s.cleared now hname with
  | refused e nonces hfault htask hrun =>
      have hrefusal : refusalOf s.cipher operation name = e := congrArg (Option.getD · _) hfault
      refine ⟨by rw [attemptsOf, hname, htask], nonces, ?_⟩
      rw [hrefusal]
      exact step_of_perform hrun
  | asks task nonces rest hfault htask hrun =>
      have hrefusal : refusalOf s.cipher operation name
          = .failed (.cancelled name .cancelled) := congrArg (Option.getD · _) hfault
      refine ⟨?_, nonces, ?_⟩
      · rw [attemptsOf, hname, htask]
        exact attempts_closed hclosed _ name task.transaction
      · have hretry := perform_retryingFrom_closed (s := { s.cleared with nonces := nonces })
            hclosed name (s.progressOf operation) task.transaction
        rw [hrefusal]
        exact step_of_perform (hrun.trans (perform_bind_error hretry))

/-- What a call on a store that was shut down leaves: it is still shut down, and nobody has
written to it. -/
theorem step_closed_keeps (hclosed : s.closed = true) (now : Timestamp)
    (hdirect : ¬ operation.IsOverwrite) :
    (s.step now operation).2.1.closed = true ∧
      (s.step now operation).2.1.table.rows = s.table.rows ∧
      (s.step now operation).2.1.counters = s.counters := by
  cases hname : operation.name? with
  | some name =>
      obtain ⟨-, nonces, hstep⟩ := step_closed hclosed now hname
      rw [hstep]
      exact ⟨hclosed, rfl, rfl⟩
  | none =>
      cases operation with
      | rekey key => exact ⟨hclosed, rfl, rfl⟩
      | shutdown => exact ⟨rfl, rfl, rfl⟩
      | refuse refusal => exact ⟨hclosed, rfl, rfl⟩
      | relent => exact ⟨hclosed, rfl, rfl⟩
      | schedule refusals => exact ⟨hclosed, rfl, rfl⟩
      | overwrite id column v => exact absurd trivial hdirect
      | _ => cases hname

/-! ## Everything that follows -/

theorem after_closed (hclosed : s.closed = true) {calls : List Call}
    (hdirect : ∀ c ∈ calls, ¬ c.operation.IsOverwrite) :
    (s.after calls).closed = true ∧ (s.after calls).table.rows = s.table.rows ∧
      (s.after calls).counters = s.counters := by
  induction calls generalizing s with
  | nil => exact ⟨hclosed, rfl, rfl⟩
  | cons c calls ih =>
      obtain ⟨hc, hcalls⟩ := List.forall_mem_cons.1 hdirect
      obtain ⟨hclosed', hrows, hcounters⟩ := step_closed_keeps hclosed c.now hc
      obtain ⟨hlast, hrows', hcounters'⟩ := ih hclosed' hcalls
      exact ⟨hlast, hrows'.trans hrows, hcounters'.trans hcounters⟩

/-- From a shutdown on nothing changes any more, whatever is called: the rows and the counters
stay as they were, and every operation is answered, without an attempt, by what is wrong with its
arguments or else that it was cancelled. -/
theorem frozen_after_shutdown (s : Store) (time : Timestamp) (calls : List Call)
    (hdirect : ∀ c ∈ calls, ¬ c.operation.IsOverwrite) :
    Frozen s ((s.step time .shutdown).2.1.after calls) := by
  have hshut : (s.step time .shutdown).2.1.closed = true := rfl
  obtain ⟨hclosed, hrows, hcounters⟩ := after_closed hshut hdirect
  refine ⟨hrows, hcounters, fun now operation name hname => ⟨?_, fun table => ?_⟩,
    fun now operation name hname => ?_⟩
  · exact (step_closed hclosed now hname).1
  · obtain ⟨-, nonces, hstep⟩ := step_closed
      (s := { (s.step time .shutdown).2.1.after calls with table := table }) hclosed now hname
    exact ⟨nonces, hstep⟩
  · obtain ⟨-, nonces, hstep⟩ := step_closed hclosed now hname
    simp only [hstep, Except.error.injEq]
    exact refusalOf_failed_iff _ operation name

/-- A session that has begun is not ended any more after a shutdown. -/
theorem frozen_of_begun :
    let t := ((((fresh .standard (.ofKey []) (.counting 0)).after [begun]).step .epoch
        .shutdown).2.1.after [endedInTen])
    t.counters = ⟨1, 0, 1⟩ ∧ t.attemptsOf .epoch (.finish "a" tenMinutes) = 0 ∧
      ∃ nonces, step { t with table := .empty } .epoch (.finish "a" tenMinutes)
        = (.error (.failed (.cancelled "end_session" .cancelled)),
          { t with table := .empty, nonces := nonces, events := [] }, []) := by
  have hfrozen := frozen_after_shutdown ((fresh .standard (.ofKey []) (.counting 0)).after [begun])
      .epoch [endedInTen] (List.forall_mem_singleton.2 id)
  obtain ⟨hattempts, hstep⟩ := hfrozen.refuses .epoch (.finish "a" tenMinutes) "end_session" rfl
  exact ⟨hfrozen.counters.trans (by decide +kernel), hattempts, hstep .empty⟩

/-- A session whose response times are too long together. -/
def endless : Session := { Session.start "a" "u" .epoch with
  responseTimes := [⟨18446744073709551615999999999, by decide⟩, ⟨1, by decide⟩] }

/-- After a shutdown such a session is not refused with an error: the program ends. -/
theorem shutdown_not_graceful :
    ¬ ∀ (s : Store) (time : Timestamp) (calls : List Call),
      (∀ c ∈ calls, ¬ c.operation.IsOverwrite) →
      ∀ (now : Timestamp) (operation : Operation) (name : String),
        operation.name? = some name →
        ∃ e, ((((s.step time .shutdown).2.1.after calls).step now operation).1
          = .error (.failed e)) := by
  intro h
  obtain ⟨e, he⟩ := h (fresh .standard .disabled (.counting 0)) .epoch []
    (fun c hc => absurd hc List.not_mem_nil) .epoch (.create endless) "create_session" rfl
  have hoverflow : ((((fresh .standard .disabled (.counting 0)).step .epoch .shutdown).2.1.after
      []).step .epoch (.create endless)).1 = .error .overflow :=
    eq_error_of_failure? (by decide +kernel)
  rw [hoverflow] at he
  cases he

end Store

end ChatArchive
