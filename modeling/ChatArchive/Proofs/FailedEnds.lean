import ChatArchive.Proofs.Atomicity
import ChatArchive.Proofs.Durations
import ChatArchive.Proofs.Readable
import ChatArchive.Proofs.Storing

/-!
# Ending a session and failing

Ending a session is the one write that is not a single transaction. Its end is recorded and
counted first; only then is its start read back from the table, and the end with it, so that
the duration can be computed. The duration itself may be lost without harm. But a start or an
end of a signed year is recorded and not read back: the caller is told that ending has failed,
and the session has ended.

This is the only way. Whatever else fails, a session that was not ended successfully is as it
was, and in a run that brings plain years only nothing is left half done.
-/

namespace ChatArchive

open Time

namespace Store

/-- An end that would be recorded although it cannot be told of: the session is open and its end
can be set after some pauses, but its start or that end would not be read back. -/
structure EndsUnread (s : Store) (id : String) (time : Timestamp) (pauses : Nat) : Prop where
  opened : s.closed = false
  settable : ∃ n table, setEnd (s.table.paused pauses) id time.toColumn = .ok (n, table)
  unread : ∃ row start, s.table.rows.find? (isOpen id) = some row ∧
    row.startTime = Timestamp.toColumn start ∧ ¬ (start.HasPlainYear ∧ time.HasPlainYear)

/-- What ending a session leaves behind, given that it has failed: nothing, or an end that could be
set in some attempt and is not read back, in the table and in the counters. If the first attempt
can set such an end, ending does fail. -/
structure FailsToEnd (s : Store) (id : String) (time : Timestamp)
    (result : Except Abort Answer × Store × List Event) : Prop where
  either : ∀ e, result.1 = .error (.failed e) →
    result.2.1 = { s with events := [] } ∨
    (∃ pauses, s.EndsUnread id time pauses) ∧
      result.2.1.table.rows = s.table.rows.map (Row.closing id time.toColumn) ∧
      result.2.1.counters = s.counters.finish
  half : s.EndsUnread id time 0 →
    (∃ text fault, result.1
      = .error (.failed (.store ("invalid datetime '" ++ text ++ "': " ++ fault)))) ∧
    result.2.1.table.rows = s.table.rows.map (Row.closing id time.toColumn) ∧
    result.2.1.counters = s.counters.finish

variable {s : Store} {t t' : Table} {id : String} {time : Timestamp} {found : Ending}
  {table : Table} {sessions : List StoredSession}

/-! ## The statement that sets the end -/

theorem setEnd_rows {finish : String} {n : Nat} (h : setEnd t id finish = .ok (n, t')) :
    t' = { t with rows := t.rows.map (Row.closing id finish) } := Table.update_map h

/-- Ending finds an open session and sets its end, or finds that it has ended and leaves the
table alone. -/
theorem ending_cases {finish : String} (h : ending id finish t = .ok (found, t')) :
    (∃ row n, t.rows.find? (isOpen id) = some row ∧ setEnd t id finish = .ok (n, t') ∧
      found = ⟨row.startTime, finish, true⟩) ∨
    (found.recorded = false ∧ t' = t) := by
  rw [ending] at h
  split at h
  · next row hrow =>
      split at h
      · next n table hset =>
          cases h
          exact Or.inl ⟨row, n, hrow, hset, rfl⟩
      · cases h
  · split at h
    · cases h
      exact Or.inr ⟨rfl, rfl⟩
    · cases h

theorem ending_open {finish : String} {row : Row} {n : Nat}
    (hrow : t.rows.find? (isOpen id) = some row) (hset : setEnd t id finish = .ok (n, t')) :
    ending id finish t = .ok (⟨row.startTime, finish, true⟩, t') := by
  rw [ending, hrow]
  simp only [hset]

/-! ## The ways to fail -/

theorem not_error_ok {e : StoreError} : ¬ ∃ t : Timestamp, Except.error e = Except.ok t := by
  rintro ⟨t, ht⟩
  cases ht

theorem readTime_cases (text : String) : (∃ t, Row.readTime text = .ok t) ∨
    ∃ fault,
      Row.readTime text = .error (.store ("invalid datetime '" ++ text ++ "': " ++ fault)) := by
  rw [Row.readTime]
  split
  · next t _ => exact Or.inl ⟨t, rfl⟩
  · next fault _ => exact Or.inr ⟨fault.message, rfl⟩

/-- A duration that cannot be recorded is passed over. -/
theorem recordDuration_ne_failed (id : String) (duration : Int64) (p : Progress) (s : Store)
    (e : StoreError) : (s.perform (recordDuration id duration p)).1 ≠ .error (.failed e) := by
  rcases perform_retryingFrom "end_session_duration" p (settingDuration id duration) s with
    ⟨u, p', table, events, -, -, h⟩ | ⟨reason, events, h⟩
  · rw [perform_recordDuration_ok h]
    exact fun h => (by cases h)
  · cases reason with
    | failed e =>
        rw [perform_recordDuration_failed h]
        exact fun h => (by cases h)
    | overflow =>
        rw [perform_recordDuration_overflow h]
        exact fun h => (by cases h)

/-- After a recorded end only reading the times back can fail. -/
theorem afterEnding_cases (id : String) (found : Ending) (p : Progress) (s : Store) :
    (∃ text fault, s.perform (afterEnding id found p)
        = (.error (.failed (.store ("invalid datetime '" ++ text ++ "': " ++ fault))),
          { s with counters := s.counters.finishIf found.recorded }) ∧
      ¬ ((∃ t, Row.readTime found.startTime = .ok t) ∧ ∃ t, Row.readTime found.endTime = .ok t)) ∨
    ((∃ t, Row.readTime found.startTime = .ok t) ∧ (∃ t, Row.readTime found.endTime = .ok t) ∧
      ∀ e, (s.perform (afterEnding id found p)).1 ≠ .error (.failed e)) := by
  rw [afterEnding, perform_bind_ok (perform_countEnded found.recorded s)]
  rcases readTime_cases found.startTime with ⟨start, hstart⟩ | ⟨fault, hstart⟩
  · rw [hstart, perform_bind_ok (perform_ofExcept_ok _ start)]
    rcases readTime_cases found.endTime with ⟨finish, hfinish⟩ | ⟨fault, hfinish⟩
    · rw [hfinish, perform_bind_ok (perform_ofExcept_ok _ finish)]
      exact Or.inr ⟨⟨start, rfl⟩, ⟨finish, rfl⟩, recordDuration_ne_failed id _ p _⟩
    · rw [hfinish]
      exact Or.inl ⟨found.endTime, fault, rfl, fun h => not_error_ok h.2⟩
  · rw [hstart]
    exact Or.inl ⟨found.startTime, fault, rfl, fun h => not_error_ok h.1⟩

/-- The start in a row that holds a session. -/
theorem readable_start (h : Sound s sessions) {p : Row → Bool} {row : Row}
    (hrow : s.table.rows.find? p = some row) :
    ∃ start : Timestamp, row.startTime = start.toColumn ∧
      ((∃ t, Row.readTime row.startTime = .ok t) ↔ start.HasPlainYear) := by
  have hmem := List.mem_of_find?_eq_some hrow
  obtain ⟨x, hx, rfl⟩ := exists_of_mem_rows h.holds hmem
  exact ⟨x.startTime, rfl, Row.readTime_column_iff x.startTime⟩

/-- An end that fails has changed nothing, or it is half done. -/
theorem finish_failed (h : Sound s sessions) {e : StoreError}
    (hfailed : (s.perform (finish id time)).1 = .error (.failed e)) :
    (∃ events, (s.perform (finish id time)).2 = { s with events := events }) ∨
    (∃ pauses, s.EndsUnread id time pauses) ∧
      (s.perform (finish id time)).2.table.rows = s.table.rows.map (Row.closing id time.toColumn) ∧
      (s.perform (finish id time)).2.counters = s.counters.finish := by
  rw [perform_finish_eq] at hfailed ⊢
  rcases perform_requireId id s with hid | ⟨e, hid⟩
  · rw [perform_bind_ok hid] at hfailed ⊢
    rcases perform_retryingFrom "end_session" s.endProgress (ending id time.toColumn) s with
      ⟨found, p, table, events, hopen, hafter, hretry⟩ | ⟨e, events, hretry⟩
    · obtain ⟨changed, hend, rfl⟩ := of_after_ok hafter
      rw [perform_bind_ok hretry] at hfailed ⊢
      rcases afterEnding_cases id found p { s with
          table := changed.refusing s.table.refusal, events := events } with
        ⟨text, fault, hafter, hunread⟩ | ⟨-, -, hother⟩
      · rw [hafter]
        rcases ending_cases hend with ⟨row, n, hrow, hset, rfl⟩ | ⟨hrecorded, rfl⟩
        · obtain ⟨start, hstart, hreadable⟩ := readable_start h hrow
          refine Or.inr ⟨⟨p.pauses, hopen, ⟨n, changed, hset⟩, row, start, hrow, hstart,
            fun hplain => hunread ⟨hreadable.2 hplain.1, ?_⟩⟩, congrArg Table.rows
            (setEnd_rows hset), rfl⟩
          exact (Row.readTime_column_iff time).2 hplain.2
        · rw [hrecorded]
          exact Or.inl ⟨events, rfl⟩
      · exact absurd hfailed (hother e)
    · rw [perform_bind_error hretry]
      exact Or.inl ⟨events, rfl⟩
  · rw [perform_bind_error hid]
    exact Or.inl ⟨s.events, rfl⟩

/-- An end that is not read back is recorded and counted nevertheless. -/
theorem finish_half (h : Sound s sessions) (hread : s.EndsUnread id time 0) :
    ∃ text fault table, s.perform (finish id time)
        = (.error (.failed (.store ("invalid datetime '" ++ text ++ "': " ++ fault))),
          { s with table := table, counters := s.counters.finish }) ∧
      table.rows = s.table.rows.map (Row.closing id time.toColumn) := by
  obtain ⟨hopen, ⟨n, table, hset⟩, row, start, hrow, hstart, hunread⟩ := hread
  have hid : id ≠ "" := by
    obtain ⟨x, hx, hselected⟩ := exists_of_find? h.holds hrow
    rw [Row.isOpen_ofStored, Bool.and_eq_true] at hselected
    rw [← of_decide_eq_true hselected.1]
    exact h.named x hx
  have hending := after_zero (ending_open hrow hset) (Table.update_refusal hset)
  rw [perform_finish_eq, perform_bind_ok (perform_requireId_ok hid s),
    perform_bind_ok (perform_retryingFrom_ok hopen hending)]
  rcases afterEnding_cases id ⟨row.startTime, time.toColumn, true⟩ s.endProgress
    { s with table := table } with
    ⟨text, fault, hafter, -⟩ | ⟨hreadable, hreadable', -⟩
  · refine ⟨text, fault, table, hafter, ?_⟩
    rw [setEnd_rows hset]
    rfl
  · simp only [hstart, Row.readTime_column_iff] at hreadable hreadable'
    exact absurd ⟨hreadable, hreadable'⟩ hunread

theorem failsToEnd_of_sound (h : Sound s sessions) (now : Timestamp) (id : String)
    (time : Timestamp) : FailsToEnd s id time (s.step now (.finish id time)) := by
  have hsilent : Sound { s with events := [] } sessions := h.withEvents []
  have hrun : run now (.finish id time) = (finish id time >>= fun _ => pure .nothing) := rfl
  constructor
  · intro e hfailed
    rcases hfinish : Store.perform { s with events := [] } (finish id time) with ⟨answer, after⟩
    cases answer with
    | ok u =>
        rw [step, hrun, perform_bind_ok hfinish] at hfailed
        cases hfailed
    | error reason =>
        rw [step, hrun, perform_bind_error hfinish] at hfailed ⊢
        cases hfailed
        have hends := finish_failed hsilent (congrArg Prod.fst hfinish)
        rw [hfinish] at hends
        rcases hends with ⟨events, hafter⟩ | ⟨⟨pauses, hread⟩, hrows, hcounters⟩
        · cases hafter
          exact Or.inl rfl
        · exact Or.inr ⟨⟨pauses, hread.opened, hread.settable, hread.unread⟩, hrows, hcounters⟩
  · intro hread
    obtain ⟨text, fault, table, hfinish, hrows⟩ :=
      finish_half hsilent ⟨hread.opened, hread.settable, hread.unread⟩
    rw [step, hrun, perform_bind_error hfinish]
    exact ⟨⟨text, fault, rfl⟩, hrows, rfl⟩

/-- After every run that does not write to the table directly, whatever was refused or shut
down on the way: if ending a session fails, then either nothing has changed, or the end is one
that is not read back, and then it is recorded and counted. Of plain years all are read back,
so in a run that brings no others ending fails atomically. -/
theorem failed_end_after_run (settings : Settings) (cipher : ContentCipher)
    (nonces : Cipher.Nonces) (calls : List Call)
    (hdirect : ∀ c ∈ calls, ¬ c.operation.IsOverwrite) (now : Timestamp) (id : String)
    (time : Timestamp) :
    FailsToEnd ((fresh settings cipher nonces).after calls) id time
        (((fresh settings cipher nonces).after calls).step now (.finish id time)) ∧
      ((∀ c ∈ calls, c.HasPlainYears) → time.HasPlainYear →
        ∀ pauses, ¬ ((fresh settings cipher nonces).after calls).EndsUnread id time pauses) := by
  have hfresh := sound_fresh settings cipher nonces
  obtain ⟨sessions, h⟩ := hfresh.after hdirect
  refine ⟨failsToEnd_of_sound h now id time, fun hplain htime pauses hread => ?_⟩
  obtain ⟨sessions, hsound, hyears⟩ :=
    hfresh.hasPlainYears_after fun c hc => ⟨hdirect c hc, hplain c hc⟩
  obtain ⟨row, start, hrow, hstart, hunread⟩ := hread.unread
  obtain ⟨x, hx, rfl⟩ := exists_of_mem_rows hsound.holds (List.mem_of_find?_eq_some hrow)
  refine hunread ⟨(Row.readTime_column_iff start).1 ⟨x.startTime, ?_⟩, htime⟩
  rw [← hstart]
  exact Row.readTime_column (hyears x hx).startTime

/-- A session that is told to end in the year 10000 has ended, and is counted as ended. -/
theorem failed_end_of_tenThousand :
    (((fresh .standard (.ofKey []) (.counting 0)).after [begun]).step .epoch
        (.finish "a" tenThousand)).2.1.counters = ⟨1, 1, 0⟩ ∧
      ∃ text fault, (((fresh .standard (.ofKey []) (.counting 0)).after [begun]).step .epoch
        (.finish "a" tenThousand)).1
          = .error (.failed (.store ("invalid datetime '" ++ text ++ "': " ++ fault))) := by
  have hread : ((fresh .standard (.ofKey []) (.counting 0)).after [begun]).EndsUnread "a"
      tenThousand 0 := by
    refine ⟨by decide +kernel, ⟨_, _, Table.update_unrefused (by decide +kernel) _ _ _⟩,
      Row.ofStored ((Session.start "a" "u" .epoch).storedWith .epoch (0, 0) []), .epoch,
      by decide +kernel, by decide +kernel, fun h => ?_⟩
    exact absurd h.2 (by decide)
  obtain ⟨hfails, -, hcounters⟩ := (failed_end_after_run .standard (.ofKey []) (.counting 0) [begun]
    (List.forall_mem_singleton.2 id) .epoch "a" tenThousand).1.half hread
  exact ⟨hcounters.trans (by decide +kernel), hfails⟩

/-- An end that is not read back is an error to the caller, and the session has ended. -/
theorem failed_end_changes :
    ¬ ∀ (settings : Settings) (cipher : ContentCipher) (nonces : Cipher.Nonces) (calls : List Call),
      (∀ c ∈ calls, ¬ c.operation.IsOverwrite) →
      ∀ (now : Timestamp) (id : String) (time : Timestamp) (e : StoreError),
        (((fresh settings cipher nonces).after calls).step now (.finish id time)).1
          = .error (.failed e) →
        (((fresh settings cipher nonces).after calls).step now (.finish id time)).2.1.table.rows
            = ((fresh settings cipher nonces).after calls).table.rows ∧
          (((fresh settings cipher nonces).after calls).step now (.finish id time)).2.1.counters
            = ((fresh settings cipher nonces).after calls).counters := by
  intro h
  have hfails : (((fresh .standard (.ofKey []) (.counting 0)).after [begun]).step .epoch
      (.finish "a" tenThousand)).1 = .error (.failed (.store ("invalid datetime '" ++
        "+10000-01-01T00:00:00.000000000Z': input contains invalid characters"))) :=
    eq_error_of_failure? (by decide +kernel)
  have hsame := h .standard (.ofKey []) (.counting 0) [begun] (List.forall_mem_singleton.2 id)
      .epoch "a" tenThousand _ hfails
  exact absurd hsame.2 (by decide +kernel)

end Store

end ChatArchive
