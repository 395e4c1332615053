import ChatArchive.Proofs.FailedEnds
import ChatArchive.Proofs.Repetition

/-!
# Ending a session once and again

Ending a session writes twice: its end, and its duration. Only the first write must succeed. If
the second is refused, the failure is reported and passed over, and the row is left with an end
and with the duration that it had.

Every later end of the session is the same operation again. It finds the end that is recorded,
whatever time it brings, and computes the duration from that and the start, both of which only
the session's own operations touch. So a second end changes nothing where the duration was
recorded, and makes up for it where it was not.
-/

namespace ChatArchive

open Time

/-! ## Statements that are refused -/

namespace Table

variable {t : Table} {columns : List Column} {select : Row → Bool}

/-- The first row that a refused statement selects is where it fails. -/
theorem mapM_reach_refused {e : DatabaseError} (h : t.permit (.update columns) = .error e)
    (f : Row → Row) {rows : List Row} (hsome : ∃ row ∈ rows, select row = true) :
    rows.mapM (t.reach columns select fun row => .ok (f row)) = .error e := by
  induction rows with
  | nil =>
      obtain ⟨row, hrow, -⟩ := hsome
      cases hrow
  | cons row rows ih =>
      rw [List.mapM_cons, reach]
      by_cases hselect : select row = true
      · rw [if_pos hselect, h]
        rfl
      · obtain ⟨r, hr, hselected⟩ := hsome
        have hrest : r ∈ rows := by
          rcases List.mem_cons.1 hr with rfl | hrest
          · exact absurd hselected hselect
          · exact hrest
        rw [if_neg hselect, ih ⟨r, hrest, hselected⟩]
        rfl

theorem update_refused {e : DatabaseError} (h : t.permit (.update columns) = .error e)
    (hsome : ∃ row ∈ t.rows, select row = true) (f : Row → Row) :
    t.update columns select (fun row => .ok (f row)) = .error e := by
  rw [update, mapM_reach_refused h f hsome]
  rfl

end Table

/-! ## Rows -/

theorem Row.measuring_measuring (id : String) (duration : Int64) (row : Row) :
    (row.measuring id duration).measuring id duration = row.measuring id duration := by
  by_cases hid : row.id = id
  · rw [measuring, measuring, if_pos hid, if_pos hid]
  · rw [measuring, measuring, if_neg hid, if_neg hid]

namespace Store

variable {s : Store} {sessions : List StoredSession} {id message : String} {row : Row}
  {time start : Timestamp} {now : Timestamp} {operation : Operation}

/-- A store in which a session that was open has ended: its row has the end, and the end is
counted. -/
def closing (s : Store) (id : String) (time : Timestamp) : Store :=
  { s with
    table := { s.table with rows := s.table.rows.map (Row.closing id time.toColumn) }
    counters := s.counters.finish
    events := [] }

/-- A store in which the row of a session has another duration. -/
def measuring (s : Store) (id : String) (duration : Int64) : Store :=
  { s with
    table := { s.table with rows := s.table.rows.map (Row.measuring id duration) }
    events := [] }

theorem measuring_measuring (s : Store) (id : String) (duration : Int64) :
    (s.measuring id duration).measuring id duration = s.measuring id duration := by
  have hrows : (s.table.rows.map (Row.measuring id duration)).map (Row.measuring id duration)
      = s.table.rows.map (Row.measuring id duration) := by
    rw [List.map_map]
    exact List.map_congr_left fun row _ => Row.measuring_measuring id duration row
  simp only [measuring, hrows]

/-- The pauses between all attempts that the settings allow. -/
def allPauses (s : Store) : List Span :=
  ((s.settings.retry.delaysFrom? (s.settings.retry.attemptLimit - 1)
    s.settings.retry.firstDelay).getD []).take (s.settings.retry.attemptLimit - 1)

/-- What becomes of a duration whose statement fails with a message however often it is attempted.
If the message is worth other attempts, they are used up, or the deadline of the operation comes
before. -/
def refusalError (s : Store) (message : String) : StoreError :=
  let failure := DatabaseError.toStoreError ⟨1811, message⟩
  if Retry.isTransient message then
    if s.endProgress.Outlasts s.allPauses then
      .retryExhausted s.settings.retry.attemptLimit failure.message
    else .cancelled "end_session_duration" .deadlineExceeded
  else failure

/-- The statements that set durations are refused, with a message, as long as an operation takes,
and the pauses between the attempts can be computed. -/
structure RefusesDurations (s : Store) (message : String) : Prop where
  refusal : ∀ pauses, s.table.refusalAfter pauses = some ⟨.updatesOf "dur", message⟩
  delays : (s.settings.retry.delaysFrom? (s.settings.retry.attemptLimit - 1)
    s.settings.retry.firstDelay).isSome

/-! ## The duration -/

theorem settingDuration_refused {t : Table}
    (hrefusal : t.refusal = some ⟨.updatesOf "dur", message⟩) (hrow : t.row? id = some row)
    (duration : Int64) :
    settingDuration id duration t = .error (DatabaseError.toStoreError ⟨1811, message⟩) := by
  have hpermit : t.permit (.update [.duration]) = .error ⟨1811, message⟩ := by
    rw [Table.permit, hrefusal]
    rfl
  obtain ⟨hmem, hid⟩ := Table.mem_of_row? hrow
  rw [settingDuration, Table.update_refused hpermit ⟨row, hmem, decide_eq_true hid⟩]

/-- A duration that is refused is reported. -/
theorem recordDuration_refused (hopen : s.closed = false) (hrefuses : s.RefusesDurations message)
    (hrow : s.table.row? id = some row) (duration : Int64) :
    ∃ events, s.perform (recordDuration id duration s.endProgress) = (.ok (), { s with
      events := events ++ [durationEvent id duration (s.refusalError message)] }) := by
  have hset : ∀ k, (settingDuration id duration).after (0 + k) s.table
      = .error (DatabaseError.toStoreError ⟨1811, message⟩) := fun k =>
    after_eq_error.2 (settingDuration_refused (t := s.table.paused (0 + k))
      (hrefuses.refusal (0 + k)) hrow duration)
  obtain ⟨delays, hdelays⟩ := Option.isSome_iff_exists.1 hrefuses.delays
  have hpauses : s.allPauses = delays.take (s.settings.retry.attemptLimit - 1) := by
    rw [allPauses, hdelays, Option.getD_some]
  have htransient : isTransient (DatabaseError.toStoreError ⟨1811, message⟩)
      = Retry.isTransient message := isTransient_toStoreError _
  have hanswer : (s.perform (retryingFrom "end_session_duration" s.endProgress
      (settingDuration id duration))).1 = .error (.failed (s.refusalError message)) := by
    rw [refusalError, ← htransient, hpauses]
    split
    · next hpassing =>
        split
        · next htime =>
            exact (attempts_exhausted hopen (fun k _ => ⟨hset k, hpassing⟩) hdelays htime _).2
        · next hlate =>
            exact retrying_late hopen (fun k _ => ⟨_, hset k, hpassing⟩) hdelays hlate _
    · next hlasting =>
        have hpermanent := (Bool.not_eq_true _).mp hlasting
        exact congrArg Prod.fst (perform_retryingFrom_permanent hopen (hset 0) hpermanent)
  rcases perform_retryingFrom "end_session_duration" s.endProgress (settingDuration id duration) s
    with ⟨u, p, table, events, -, -, h⟩ | ⟨reason, events, h⟩
  · rw [h] at hanswer
    cases hanswer
  · rw [h] at hanswer
    cases hanswer
    exact ⟨events, (perform_recordDuration_failed h).trans rfl⟩

/-! ## Steps -/

theorem step_of_finish {after : Store}
    (h : s.cleared.perform (finish id time) = (.ok (), after)) (now : Timestamp) :
    s.step now (.finish id time) = (.ok .nothing, { after with events := [] }, after.events) :=
  step_of_perform (perform_bind_ok h)

section

variable (h : Sound s sessions) (hopen : s.closed = false) (hid : id ≠ "")
  (hrow : s.table.row? id = some row) (hstart : Row.readTime row.startTime = .ok start)

include h hopen hid hrow hstart

/-- An open session ends, and its duration is recorded. -/
theorem step_finish_open (hrefusal : s.table.refusal = none) (hactive : row.endTime = none)
    (htime : time.HasPlainYear) (now : Timestamp) :
    s.step now (.finish id time)
      = (.ok .nothing, (s.closing id time).measuring id (durationSecs start time), []) := by
  have hfinish : Row.readTime (row.endTime.getD time.toColumn) = .ok time := by
    rw [hactive]
    exact Row.readTime_column htime
  have hperform := finish_unrefused (s := s.cleared) hopen hrefusal h.distinct_rows hid hrow time
    hstart hfinish
  rw [step_of_finish hperform, hactive]
  rfl

/-- A session that has ended is measured again, up to the end that is recorded. -/
theorem step_finish_ended (hrefusal : s.table.refusal = none) {finish : Timestamp}
    (hended : row.endTime = some finish.toColumn) (hplain : finish.HasPlainYear)
    (now later : Timestamp) :
    s.step now (.finish id later)
      = (.ok .nothing, s.measuring id (durationSecs start finish), []) := by
  have hfinish : Row.readTime (row.endTime.getD later.toColumn) = .ok finish := by
    rw [hended]
    exact Row.readTime_column hplain
  have hperform := finish_unrefused (s := s.cleared) hopen hrefusal h.distinct_rows hid hrow later
    hstart hfinish
  have hsame : s.cleared.table.rows.map (Row.closing id later.toColumn) = s.cleared.table.rows :=
    map_closing_of_ended h.distinct_rows hrow (by rw [hended]; rfl) _
  rw [hsame, hended] at hperform
  rw [step_of_finish hperform]
  rfl

/-- An open session ends although its duration is refused. -/
theorem step_finish_unmeasured (hrefuses : s.RefusesDurations message)
    (hactive : row.endTime = none) (htime : time.HasPlainYear) (now : Timestamp) :
    ∃ events, s.step now (.finish id time) = (.ok .nothing, s.closing id time,
      events ++ [durationEvent id (durationSecs start time) (s.refusalError message)]) := by
  have hfinish : Row.readTime (row.endTime.getD time.toColumn) = .ok time := by
    rw [hactive]
    exact Row.readTime_column htime
  have hpermit : s.table.permit (.update [.endTime]) = .ok () := by
    rw [Table.permit, show s.table.refusal = _ from hrefuses.refusal 0]
    rfl
  have hperform := finish_permitted (s := s.cleared) hopen hpermit h.distinct_rows hid hrow time
    hstart hfinish
  rw [hactive] at hperform
  obtain ⟨events, hrecord⟩ := recordDuration_refused (s := { s.cleared with
    counters := s.counters.finish
    table := { s.table with rows := s.table.rows.map (Row.closing id time.toColumn) } })
    hopen ⟨hrefuses.refusal, hrefuses.delays⟩ (Table.row?_closed hrow _) (durationSecs start time)
  exact ⟨events, step_of_finish (hperform.trans hrecord) now⟩

end

/-! ## Later ends -/

theorem row?_step (s : Store) (now : Timestamp) (hdirect : ¬ operation.IsOverwrite)
    (htarget : operation.target? ≠ some id) :
    (s.step now operation).2.1.table.row? id = s.table.row? id := by
  by_cases hordinary : operation.IsOrdinary
  · exact (sameFor_step s now hordinary htarget).row
  · cases operation with
    | rekey key => rfl
    | shutdown => rfl
    | overwrite i column v => exact absurd trivial hdirect
    | _ => exact absurd trivial hordinary

/-- Operations on other ids leave the row of an id alone. -/
theorem row?_after (s : Store) {calls : List Call}
    (hcalls : ∀ c ∈ calls, ¬ c.operation.IsOverwrite ∧ c.operation.target? ≠ some id) :
    (s.after calls).table.row? id = s.table.row? id := by
  induction calls generalizing s with
  | nil => rfl
  | cons c calls ih =>
      obtain ⟨hdirect, htarget⟩ := hcalls c List.mem_cons_self
      exact (ih _ fun d hd => hcalls d (List.mem_cons_of_mem c hd)).trans
        (row?_step s c.now hdirect htarget)

/-- A session ends with its duration, and ending it again changes nothing, whatever time that
brings. -/
structure EndsForGood (s : Store) (id : String) (time : Timestamp) (duration : Int64) :
    Prop where
  step : ∀ now, s.step now (.finish id time)
    = (.ok .nothing, (s.closing id time).measuring id duration, [])
  again : ∀ now later, ((s.closing id time).measuring id duration).step now (.finish id later)
    = (.ok .nothing, (s.closing id time).measuring id duration, [])

/-- A session ends without its duration, which is reported with the message of the refusal.
Whenever it is ended again in a table that refuses nothing, the duration is recorded that was
missed, and that is all. -/
structure EndsUnmeasured (s : Store) (message id : String) (time : Timestamp) (duration : Int64) :
    Prop where
  step : ∀ now, ∃ events, s.step now (.finish id time) = (.ok .nothing, s.closing id time,
    events ++ [durationEvent id duration (s.refusalError message)])
  healed : ∀ calls : List Call,
    (∀ c ∈ calls, ¬ c.operation.IsOverwrite ∧ c.operation.target? ≠ some id) →
    ((s.closing id time).after calls).closed = false →
    ((s.closing id time).after calls).table.refusal = none →
    ((s.closing id time).after calls).table.row? id = (s.closing id time).table.row? id ∧
      ∀ now later, ((s.closing id time).after calls).step now (.finish id later)
        = (.ok .nothing, ((s.closing id time).after calls).measuring id duration, [])

section

variable (h : Sound s sessions) (hopen : s.closed = false)
  (hrow : s.table.row? id = some row) (hactive : row.endTime = none)
  (hstart : Row.readTime row.startTime = .ok start) (htime : time.HasPlainYear)

include h hopen hrow hactive hstart htime

theorem endsForGood (hid : id ≠ "") (hrefusal : s.table.refusal = none) :
    EndsForGood s id time (durationSecs start time) := by
  have hstep : ∀ now, s.step now (.finish id time)
      = (.ok .nothing, (s.closing id time).measuring id (durationSecs start time), []) :=
    step_finish_open h hopen hid hrow hstart hrefusal hactive htime
  refine ⟨hstep, fun now later => ?_⟩
  have hdirect : ¬ (Operation.finish id time).IsOverwrite := fun hwrites => hwrites
  obtain ⟨sessions', -, h'⟩ := h.step now hdirect
  rw [hstep] at h'
  have hrow' := Table.row?_concluded hrow time.toColumn (durationSecs start time)
  have hended : some (row.endTime.getD time.toColumn) = some time.toColumn := by
    rw [hactive, Option.getD_none]
  rw [step_finish_ended h' hopen hid hrow' hstart hrefusal hended htime now later,
    measuring_measuring]

theorem endsUnmeasured (hid : id ≠ "") (hrefuses : s.RefusesDurations message) :
    EndsUnmeasured s message id time (durationSecs start time) := by
  have hstep : ∀ now, ∃ events, s.step now (.finish id time) = (.ok .nothing, s.closing id time,
      events ++ [durationEvent id (durationSecs start time) (s.refusalError message)]) :=
    step_finish_unmeasured h hopen hid hrow hstart hrefuses hactive htime
  refine ⟨hstep, fun calls hcalls hopen' hrefusal' => ?_⟩
  obtain ⟨events, hfirst⟩ := hstep time
  have hdirect : ¬ (Operation.finish id time).IsOverwrite := fun hwrites => hwrites
  obtain ⟨sessions', -, h'⟩ := h.step time hdirect
  rw [hfirst] at h'
  obtain ⟨later, hlater⟩ := h'.after fun c hc => (hcalls c hc).1
  -- by then the row still shows the start and the end of this call, which is all that counts
  have hsame := row?_after (s.closing id time) hcalls
  have hended : some (row.endTime.getD time.toColumn) = some time.toColumn := by
    rw [hactive, Option.getD_none]
  exact ⟨hsame, step_finish_ended hlater hopen' hid (hsame.trans (Table.row?_closed hrow _)) hstart
    hrefusal' hended htime⟩

end

/-! ## Runs -/

/-- After every run whose times have plain years, with whatever faults it met, a session that is
open ends, and once more changes nothing. If its duration is refused, with any message and as
long as the pauses between the attempts can be computed, it ends nevertheless, and the next end
that finds nothing refused makes up for the duration, whatever has happened to other sessions
in between. -/
theorem end_after_run (settings : Settings) (cipher : ContentCipher) (nonces : Cipher.Nonces)
    (calls : List Call) (hcalls : ∀ c ∈ calls, ¬ c.operation.IsOverwrite ∧ c.HasPlainYears)
    (hopen : ((fresh settings cipher nonces).after calls).closed = false) (id : String) (row : Row)
    (hrow : ((fresh settings cipher nonces).after calls).table.row? id = some row)
    (hactive : row.endTime = none) (time : Timestamp) (htime : time.HasPlainYear) :
    ∃ start, Row.readTime row.startTime = .ok start ∧
      (((fresh settings cipher nonces).after calls).table.refusal = none →
        EndsForGood ((fresh settings cipher nonces).after calls) id time
          (durationSecs start time)) ∧
      ∀ message, RefusesDurations ((fresh settings cipher nonces).after calls) message →
        EndsUnmeasured ((fresh settings cipher nonces).after calls) message id time
          (durationSecs start time) := by
  obtain ⟨sessions, h, hplain⟩ := (sound_fresh settings cipher nonces).hasPlainYears_after hcalls
  obtain ⟨hmem, rfl⟩ := Table.mem_of_row? hrow
  obtain ⟨x, hx, rfl⟩ := exists_of_mem_rows h.holds hmem
  have hid : (Row.ofStored x).id ≠ "" := h.named x hx
  have hstart : Row.readTime (Row.ofStored x).startTime = .ok x.startTime :=
    Row.readTime_column (hplain x hx).startTime
  exact ⟨x.startTime, hstart, endsForGood h hopen hrow hactive hstart htime hid,
    fun message => endsUnmeasured h hopen hrow hactive hstart htime hid⟩

/-- The durations are refused, for a reason that is worth another attempt. -/
def lockedDurations : Call :=
  ⟨.epoch, .refuse ⟨.updatesOf "dur", "database is locked"⟩⟩

theorem end_after_begun :
    EndsForGood ((fresh .standard .disabled (.counting 0)).after [begun]) "a" tenMinutes 600 ∧
      EndsUnmeasured ((fresh .standard .disabled (.counting 0)).after [begun, lockedDurations])
        "database is locked" "a" tenMinutes 600 := by
  have hepoch : Timestamp.epoch.HasPlainYear := by decide
  have hten : tenMinutes.HasPlainYear := by decide
  have hbegun : ¬ begun.operation.IsOverwrite ∧ begun.HasPlainYears :=
    ⟨id, hepoch, hepoch, fun t ht => (by cases ht), hepoch⟩
  have hlocked : ¬ lockedDurations.operation.IsOverwrite ∧ lockedDurations.HasPlainYears :=
    ⟨id, hepoch, trivial⟩
  have hread : Row.readTime (Timestamp.toColumn .epoch) = .ok .epoch :=
    Row.readTime_column hepoch
  constructor
  · obtain ⟨start, hstart, hends, -⟩ := end_after_run .standard .disabled (.counting 0) [begun]
      (List.forall_mem_singleton.2 hbegun) (by decide +kernel) "a"
      (Row.ofStored ((Session.start "a" "u" .epoch).storedWith .epoch (0, 0) []))
      (by decide +kernel) (by decide) tenMinutes hten
    cases hread.symm.trans hstart
    exact hends (by decide +kernel)
  · have hboth : ∀ c ∈ [begun, lockedDurations], ¬ c.operation.IsOverwrite ∧ c.HasPlainYears :=
      List.forall_mem_cons.2 ⟨hbegun, List.forall_mem_singleton.2 hlocked⟩
    obtain ⟨start, hstart, -, hends⟩ := end_after_run .standard .disabled (.counting 0)
      [begun, lockedDurations] hboth (by decide +kernel) "a"
      (Row.ofStored ((Session.start "a" "u" .epoch).storedWith .epoch (0, 0) []))
      (by decide +kernel) (by decide) tenMinutes hten
    cases hread.symm.trans hstart
    have hsteady : Steady ((fresh .standard .disabled (.counting 0)).after
        [begun, lockedDurations]).table :=
      steady_of_scheduled (by decide +kernel)
    exact hends _ ⟨fun pauses => (hsteady pauses).trans (by decide +kernel), by decide +kernel⟩

end Store

end ChatArchive
