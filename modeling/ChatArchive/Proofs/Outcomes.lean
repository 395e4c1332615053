import ChatArchive.Proofs.Statements

/-!
# How writing operations end

An operation that writes checks its arguments, encrypts, runs a transaction, and
counts what the transaction has done. Each of the four is taken apart here once, in
any store: either its transaction went through, and the store that it leaves is known
field by field, or it has failed, and what it leaves differs from before in nonces and
events only. Everything else about writing follows from what the transactions do to
a table.
-/

namespace ChatArchive

open Time

/-- The counters after a transaction that has ended a session, or has not. -/
def Counters.finishIf (c : Counters) (ended : Bool) : Counters :=
  if ended then c.finish else c

namespace Table

variable {t t' : Table} {columns : List Column} {select : Row → Bool}
  {change : Row → Except DatabaseError Row}

theorem reach_ok {row row' : Row} (h : t.reach columns select change row = .ok row') :
    if select row then change row = .ok row' else row' = row := by
  rw [reach] at h
  split at h
  · next hselect =>
      obtain ⟨changed, hchange, h⟩ := Except.bind_eq_ok.1 h
      obtain ⟨-, -, h⟩ := Except.bind_eq_ok.1 h
      cases h
      rw [if_pos hselect]
      exact hchange
  · next hselect =>
      cases h
      rw [if_neg hselect]

/-- A statement counts the rows that it selects and changes them one by one. -/
theorem update_rows {n : Nat} (h : t.update columns select change = .ok (n, t')) :
    n = t.rows.countP select ∧ ∃ rows, t' = { t with rows := rows } ∧
      List.Forall₂ (fun row row' => if select row then change row = .ok row' else row' = row)
        t.rows rows := by
  obtain ⟨rows, hrows, h⟩ := Except.bind_eq_ok.1 h
  cases h
  exact ⟨rfl, rows, rfl, (mapM_eq_ok.1 hrows).imp fun _ _ => reach_ok⟩

/-- A statement that cannot fail on a row has changed all rows that it selects, or none. -/
theorem update_map {f : Row → Row} {n : Nat}
    (h : t.update columns select (fun row => .ok (f row)) = .ok (n, t')) :
    t' = { t with rows := t.rows.map fun row => if select row then f row else row } := by
  obtain ⟨-, rows, rfl, hrows⟩ := update_rows h
  have hmap : (t.rows.map fun row => if select row then f row else row) = rows := by
    rw [← List.forall₂_eq_eq_eq, List.forall₂_map_left_iff]
    refine hrows.imp fun row row' hrow => ?_
    split at hrow
    · next hselected =>
        cases hrow
        rw [if_pos hselected]
    · next hpassed => rw [if_neg hpassed, hrow]
  rw [hmap]

theorem update_refusal {n : Nat} (h : t.update columns select change = .ok (n, t')) :
    t'.refusal = t.refusal := by
  obtain ⟨-, rows, rfl, -⟩ := update_rows h
  rfl

/-- A statement that selects no row leaves the table as it was. -/
theorem update_none (h : t.update columns select change = .ok (0, t')) : t' = t := by
  obtain ⟨hcount, rows, rfl, hrows⟩ := update_rows h
  have hnone := List.countP_eq_zero.1 hcount.symm
  have hsame : t.rows = rows := by
    rw [← List.forall₂_eq_eq_eq]
    refine (List.forall₂_and_left _ _).2 ⟨hnone, hrows⟩ |>.imp fun row row' hrow => ?_
    rw [if_neg hrow.1] at hrow
    exact hrow.2.symm
  rw [← hsame]

end Table

namespace Store

variable {s : Store} {now : Timestamp} {id : String}

/-! ## The parts -/

theorem perform_prepare (now : Timestamp) (session : Session) (s : Store) :
    ∃ nonces, (∃ stored, session.StoredFrom s.cipher s.nonces now stored ∧
        validate stored = .ok () ∧
        s.perform (prepare now session) = (.ok stored, { s with nonces := nonces })) ∨
      ∃ e, s.perform (prepare now session) = (.error e, { s with nonces := nonces }) := by
  rw [prepare, perform_bind_ok (perform_getThe s)]
  cases hdrawing : session.toStored s.cipher now with
  | none => exact ⟨s.nonces, Or.inr ⟨_, rfl⟩⟩
  | some drawing =>
      obtain ⟨nonces, ⟨stored, hdraws, h⟩ | ⟨e, h⟩⟩ := perform_encrypting drawing s
      · refine ⟨nonces, ?_⟩
        simp only []
        rw [perform_bind_ok h]
        cases hvalid : validate stored with
        | error e => exact Or.inr ⟨_, rfl⟩
        | ok u =>
            exact Or.inl ⟨stored, ⟨drawing, hdrawing, hdraws⟩, hvalid, rfl⟩
      · exact ⟨nonces, Or.inr ⟨e, perform_bind_error h⟩⟩

theorem perform_requireId (id : String) (s : Store) :
    s.perform (requireId id) = (.ok (), s) ∨ ∃ e, s.perform (requireId id) = (.error e, s) := by
  rw [requireId]
  split
  · exact Or.inr ⟨_, rfl⟩
  · exact Or.inl rfl

theorem perform_requireId_ok (hid : id ≠ "") (s : Store) :
    s.perform (requireId id) = (.ok (), s) := by
  rw [requireId, if_neg (by rwa [String.isEmpty_iff]), perform_pure]

theorem perform_countEnded (ended : Bool) (s : Store) :
    s.perform (countEnded ended)
      = (.ok (), { s with counters := s.counters.finishIf ended }) := by
  cases ended <;> rfl

theorem perform_recordDuration_ok {duration : Int64} {p : Progress} {x : Unit × Progress}
    {t : Store} (h : s.perform (retryingFrom "end_session_duration" p
      (settingDuration id duration)) = (.ok x, t)) :
    s.perform (recordDuration id duration p) = (.ok (), t) :=
  perform_tryCatch_ok (perform_bind_ok h)

/-- That a duration is not recorded is told of and passed over. -/
theorem perform_recordDuration_failed {duration : Int64} {p : Progress} {e : StoreError}
    {t : Store} (h : s.perform (retryingFrom "end_session_duration" p
      (settingDuration id duration)) = (.error (.failed e), t)) :
    s.perform (recordDuration id duration p)
      = (.ok (), { t with events := t.events ++ [durationEvent id duration e] }) :=
  perform_tryCatch_error (perform_bind_error h)

theorem perform_recordDuration_overflow {duration : Int64} {p : Progress} {t : Store}
    (h : s.perform (retryingFrom "end_session_duration" p (settingDuration id duration))
      = (.error .overflow, t)) :
    s.perform (recordDuration id duration p) = (.error .overflow, t) :=
  perform_tryCatch_error (perform_bind_error h)

/-- Recording a duration changes it in the table, or leaves only events. -/
theorem perform_recordDuration (id : String) (duration : Int64) (p : Progress) (s : Store) :
    ∃ answer events table, s.perform (recordDuration id duration p)
        = (answer, { s with events := events, table := table }) ∧
      (table = s.table ∨
        ∃ pauses, (settingDuration id duration).after pauses s.table = .ok ((), table)) := by
  rcases perform_retryingFrom "end_session_duration" p (settingDuration id duration) s with
    ⟨u, p', table, events, -, hset, h⟩ | ⟨e, events, h⟩
  · exact ⟨_, events, table, perform_recordDuration_ok h, Or.inr ⟨_, hset⟩⟩
  · cases e with
    | failed e => exact ⟨_, _, s.table, (perform_recordDuration_failed h).trans rfl, Or.inl rfl⟩
    | overflow => exact ⟨_, events, s.table, perform_recordDuration_overflow h, Or.inl rfl⟩

/-- What ending a session does once the end is recorded. -/
def afterEnding (id : String) (found : Ending) (p : Progress) : Action Unit := do
  countEnded found.recorded
  let startTime ← ofExcept (Row.readTime found.startTime)
  let endTime ← ofExcept (Row.readTime found.endTime)
  recordDuration id (durationSecs startTime endTime) p

/-- An end that begins, with all of the time that the store has for it. -/
def endProgress (s : Store) : Progress := .start s.settings.timeouts.sessionEndSecs

theorem perform_finish_eq (id : String) (time : Timestamp) (s : Store) :
    s.perform (finish id time) = s.perform (do
      requireId id
      let ended ← retryingFrom "end_session" s.endProgress (ending id time.toColumn)
      afterEnding id ended.1 ended.2) := by
  rw [finish]
  rcases perform_requireId id s with hid | ⟨e, hid⟩
  · rw [perform_bind_ok hid, perform_bind_ok hid, perform_bind_ok (perform_getThe s)]
    rfl
  · rw [perform_bind_error hid, perform_bind_error hid]

/-- What follows once the end is recorded can fail at the times or at the duration,
but the end stays, and it is counted. -/
theorem perform_afterEnding (id : String) (found : Ending) (p : Progress) (s : Store) :
    ∃ answer events table, s.perform (afterEnding id found p)
        = (answer, { s with
            counters := s.counters.finishIf found.recorded, events := events, table := table }) ∧
      (table = s.table ∨ ∃ duration pauses,
        (settingDuration id duration).after pauses s.table = .ok ((), table)) := by
  rw [afterEnding, perform_bind_ok (perform_countEnded found.recorded s)]
  cases hstart : Row.readTime found.startTime with
  | error e => exact ⟨_, s.events, s.table, rfl, Or.inl rfl⟩
  | ok startTime =>
      rw [perform_bind_ok (perform_ofExcept_ok _ startTime)]
      cases hend : Row.readTime found.endTime with
      | error e => exact ⟨_, s.events, s.table, rfl, Or.inl rfl⟩
      | ok endTime =>
          rw [perform_bind_ok (perform_ofExcept_ok _ endTime)]
          obtain ⟨answer, events, table, h, htable⟩ :=
            perform_recordDuration id (durationSecs startTime endTime) p
              { s with counters := s.counters.finishIf found.recorded }
          exact ⟨answer, events, table, h, htable.imp_right fun hset => ⟨_, hset⟩⟩

/-! ## The operations -/

theorem perform_create (now : Timestamp) (session : Session) (s : Store) :
    (∃ stored pauses table nonces events, session.StoredFrom s.cipher s.nonces now stored ∧
      validate stored = .ok () ∧
      (insertion (Row.ofStored stored)).after pauses s.table = .ok ((), table) ∧
      s.perform (create now session) = (.ok (), { s with
        nonces := nonces, table := table,
        counters := s.counters.create stored.endTime.isNone, events := events })) ∨
    ∃ e nonces events, s.perform (create now session)
      = (.error e, { s with nonces := nonces, events := events }) := by
  rw [create]
  obtain ⟨nonces, ⟨stored, hstored, hvalid, h⟩ | ⟨e, h⟩⟩ := perform_prepare now session s
  · rw [perform_bind_ok h]
    rcases perform_retrying "create_session" (·.defaultSecs) (insertion (Row.ofStored stored))
      { s with nonces := nonces } with ⟨u, pauses, table, events, -, hinsert, h'⟩ | ⟨e, events, h'⟩
    · refine Or.inl ⟨stored, pauses, table, nonces, events, hstored, hvalid, hinsert, ?_⟩
      rw [perform_bind_ok h', perform_modify]
    · exact Or.inr ⟨e, nonces, events, perform_bind_error h'⟩
  · exact Or.inr ⟨e, nonces, s.events, perform_bind_error h⟩

theorem perform_update (now : Timestamp) (session : Session) (s : Store) :
    (∃ stored ended pauses table nonces events, session.StoredFrom s.cipher s.nonces now stored ∧
      validate stored = .ok () ∧
      (updating (Row.ofStored stored)).after pauses s.table = .ok (ended, table) ∧
      s.perform (update now session) = (.ok (), { s with
        nonces := nonces, table := table, counters := s.counters.finishIf ended,
        events := events })) ∨
    ∃ e nonces events, s.perform (update now session)
      = (.error e, { s with nonces := nonces, events := events }) := by
  rw [update]
  obtain ⟨nonces, ⟨stored, hstored, hvalid, h⟩ | ⟨e, h⟩⟩ := perform_prepare now session s
  · rw [perform_bind_ok h]
    rcases perform_retrying "update_session" (·.defaultSecs) (updating (Row.ofStored stored))
      { s with nonces := nonces } with
        ⟨ended, pauses, table, events, -, hupdate, h'⟩ | ⟨e, events, h'⟩
    · refine Or.inl ⟨stored, ended, pauses, table, nonces, events, hstored, hvalid, hupdate, ?_⟩
      rw [perform_bind_ok h', perform_countEnded]
    · exact Or.inr ⟨e, nonces, events, perform_bind_error h'⟩
  · exact Or.inr ⟨e, nonces, s.events, perform_bind_error h⟩

/-- A message that reaches no session has gone through a transaction, but one that
has changed nothing. -/
theorem appending_none {m : StoredMessage} {time : String} {t t' : Table}
    (h : appending id m time t = .ok (0, t')) : t' = t := by
  rw [appending] at h
  split at h
  · next hupdate =>
      cases h
      exact Table.update_none hupdate
  · cases h

theorem appending_after_none {m : StoredMessage} {time : String} {t t' : Table} {pauses : Nat}
    (h : (appending id m time).after pauses t = .ok (0, t')) : t' = t := by
  obtain ⟨changed, hchanged, rfl⟩ := of_after_ok h
  rw [appending_none hchanged]
  rfl

theorem perform_addMessage (now : Timestamp) (id : String) (message : Message) (s : Store) :
    (∃ stored n pauses table nonces events,
      ContentCipher.DrawsFrom (message.toStored s.cipher) s.nonces stored ∧
      (appending id stored now.toColumn).after pauses s.table = .ok (n + 1, table) ∧
      s.perform (addMessage now id message)
        = (.ok (), { s with nonces := nonces, table := table, events := events })) ∨
    ∃ e nonces events, s.perform (addMessage now id message)
      = (.error e, { s with nonces := nonces, events := events }) := by
  rw [addMessage]
  rcases perform_requireId id s with hid | ⟨e, hid⟩
  · rw [perform_bind_ok hid, perform_bind_ok (perform_getThe s)]
    obtain ⟨nonces, ⟨stored, hstored, h⟩ | ⟨e, h⟩⟩ :=
      perform_encrypting (message.toStored s.cipher) s
    · rw [perform_bind_ok h]
      rcases perform_retrying "add_message" (·.messageAddSecs) (appending id stored now.toColumn)
        { s with nonces := nonces } with
        ⟨n, pauses, table, events, -, happend, h'⟩ | ⟨e, events, h'⟩
      · rw [perform_bind_ok h']
        cases n with
        | zero =>
            have htable : table = s.table := appending_after_none happend
            rw [htable, if_pos rfl, perform_fail]
            exact Or.inr ⟨_, nonces, events, rfl⟩
        | succ n =>
            rw [if_neg (Nat.succ_ne_zero n), perform_pure]
            exact Or.inl ⟨stored, n, pauses, table, nonces, events, hstored, happend, rfl⟩
      · exact Or.inr ⟨e, nonces, events, perform_bind_error h'⟩
    · exact Or.inr ⟨e, nonces, s.events, perform_bind_error h⟩
  · exact Or.inr ⟨e, s.nonces, s.events, perform_bind_error hid⟩

/-- Ending is the one operation whose answer does not tell whether it has changed
the table. -/
theorem perform_finish (id : String) (time : Timestamp) (s : Store) :
    (∃ found pauses table, (ending id time.toColumn).after pauses s.table = .ok (found, table) ∧
      ∃ answer events table', s.perform (finish id time) = (answer, { s with
          counters := s.counters.finishIf found.recorded, events := events,
          table := table' }) ∧
        (table' = table ∨ ∃ duration pauses,
          (settingDuration id duration).after pauses table = .ok ((), table'))) ∨
    ∃ e events, s.perform (finish id time) = (.error e, { s with events := events }) := by
  rw [perform_finish_eq]
  rcases perform_requireId id s with hid | ⟨e, hid⟩
  · rw [perform_bind_ok hid]
    rcases perform_retryingFrom "end_session" s.endProgress (ending id time.toColumn) s with
      ⟨found, p, table, events, -, hend, h⟩ | ⟨e, events, h⟩
    · rw [perform_bind_ok h]
      exact Or.inl ⟨found, p.pauses, table, hend,
        perform_afterEnding id found p { s with table := table, events := events }⟩
    · exact Or.inr ⟨e, events, perform_bind_error h⟩
  · exact Or.inr ⟨e, s.events, perform_bind_error hid⟩

end Store

end ChatArchive
