import ChatArchive.Proofs.ColumnTimes
import ChatArchive.Proofs.Presence

/-!
# What an update writes

An update is made of two statements. The first sets thirteen columns, two of them by what the row
held, and the second sets the end of a row that has none. Together they are one merge of the
stored form of the session into the one that is stored. `Row.Updated` tells its result column by
column, and merging once more changes nothing: by then the row has the end, the activity is no
later than its own, and an active session is measured up to the same instant.
-/

namespace ChatArchive

open Time

/-! ## An updated row -/

/-- The later of two instants, the first of which may be missing. -/
def laterOf : Option Timestamp → Timestamp → Timestamp
  | none, t => t
  | some last, t => if last < t then t else last

/-- What becomes of a row when its session is updated, given the stored form of the session. -/
structure Row.Updated (now : Timestamp) (session : Session) (document : StoredSession)
    (old new : Row) : Prop where
  id : new.id = old.id
  messages : new.messages = old.messages
  endTime : new.endTime = old.endTime.or (session.endTime.map Timestamp.toColumn)
  duration : if old.endTime.isSome then new.duration = old.duration
    else new.duration.toInt
      = max (session.startTime.nanosUntil (session.endTime.getD now)) 0 / 1000000000
  lastActivity : session.lastActivity.HasPlainYear → ∃ last,
    Row.readTime? old.lastActivity = .ok last ∧
      new.lastActivity = some (laterOf last session.lastActivity).toColumn
  column : ∀ column, column ∉ [.id, .messages, .endTime, .duration, .lastActivity] →
    new.get column = (Row.ofStored document).get column

namespace Store

variable {s : Store} {sessions : List StoredSession} {cipher : ContentCipher}
  {nonces : Cipher.Nonces} {now : Timestamp} {x document : StoredSession} {session : Session}

/-! ## One row -/

theorem empty_lt {s : String} (h : s ≠ "") : "" < s := by
  rw [String.lt_iff_toList_lt]
  cases hs : s.toList with
  | nil => exact absurd (String.toList_eq_nil_iff.1 hs) h
  | cons c cs => exact List.nil_lt_cons c cs

/-- Texts of plain years tell which of two instants is the later one. -/
theorem laterActivity_eq {last : Option Timestamp} {t : Timestamp}
    (hlast : ∀ u ∈ last, u.HasPlainYear) (ht : t.HasPlainYear) :
    StoredSession.laterActivity last (some t) = some (laterOf last t) := by
  cases last with
  | none =>
      have hsome : t.toColumn ≠ "" := by
        intro hnone
        have hlength := Timestamp.length_toColumn ht
        rw [hnone] at hlength
        cases hlength
      exact if_pos (empty_lt hsome)
  | some u =>
      have hlt : u.toColumn < t.toColumn ↔ u < t :=
        Timestamp.toColumn_lt_iff (hlast u rfl) ht
      simp only [StoredSession.laterActivity, Option.map_some, Option.getD_some, hlt, laterOf]
      split <;> rfl

theorem updated_ofStored (hx : x.HasPlainYears)
    (hdocument : session.StoredFrom cipher nonces now document) :
    Row.Updated now session document (Row.ofStored x) (Row.ofStored (document.merged x)) := by
  obtain ⟨figures, messages, -, -, rfl⟩ := Session.storedFrom_iff.1 hdocument
  refine ⟨rfl, rfl, ?_, ?_,
    fun hactive => ⟨x.lastActivity, Row.readTime?_column hx.lastActivity, ?_⟩,
    fun column hcolumn => ?_⟩
  · show (x.endTime.or session.endTime).map Timestamp.toColumn = _
    cases hend : x.endTime <;> simp [Row.ofStored, hend]
  · show if (x.endTime.map Timestamp.toColumn).isSome then _ else _
    rw [Option.isSome_map]
    split
    · next hended => exact if_neg (by rw [← Option.not_isSome, hended]; decide)
    · next hactive =>
        rw [← toInt_durationSecs]
        exact congrArg Int64.toInt (if_pos (by rw [← Option.not_isSome]; simpa using hactive))
  · show (StoredSession.laterActivity x.lastActivity (some session.lastActivity)).map
      Timestamp.toColumn = _
    rw [laterActivity_eq hx.lastActivity hactive, Option.map_some]
  · cases column <;> first | rfl | simp at hcolumn

/-! ## Once more -/

theorem laterActivity_again (last : Option Timestamp) (t : Timestamp) :
    StoredSession.laterActivity (StoredSession.laterActivity last (some t)) (some t)
      = StoredSession.laterActivity last (some t) := by
  by_cases hlater : (last.map Timestamp.toColumn).getD "" < t.toColumn
  · have hmoved : StoredSession.laterActivity last (some t) = some t := if_pos hlater
    rw [hmoved]
    exact if_neg (String.lt_irrefl _)
  · have hkept : StoredSession.laterActivity last (some t) = last := if_neg hlater
    rw [hkept, hkept]

/-- A second merge of the same session at the same time changes nothing. -/
theorem merged_again (figures : Int64 × Int64) (messages messages' : List StoredMessage)
    (x : StoredSession) :
    (session.storedWith now figures messages').merged
        ((session.storedWith now figures messages).merged x)
      = (session.storedWith now figures messages).merged x := by
  have hactivity := laterActivity_again x.lastActivity session.lastActivity
  have hend : (x.endTime.or session.endTime).or session.endTime
      = x.endTime.or session.endTime := by
    rw [Option.or_assoc, Option.or_self]
  have hduration : (if (x.endTime.or session.endTime).isNone
        then durationSecs session.startTime (session.endTime.getD now)
        else if x.endTime.isNone then durationSecs session.startTime (session.endTime.getD now)
        else x.duration)
      = if x.endTime.isNone then durationSecs session.startTime (session.endTime.getD now)
        else x.duration := by
    by_cases hopen : x.endTime.isNone
    · rw [if_pos hopen, ite_self]
    · rw [Option.isNone_iff_eq_none] at hopen
      exact if_neg fun hnone =>
        hopen (Option.or_eq_none_iff.1 (Option.isNone_iff_eq_none.1 hnone)).1
  simp only [StoredSession.merged, StoredSession.refreshed, Session.storedWith, hactivity, hend]
  congr 1

theorem Sound.map_merged (h : Sound s sessions) (id : String) (document : StoredSession)
    {s' : Store} (hholds : s'.table.Holds (sessions.map (onId id document.merged))) :
    Sound s' (sessions.map (onId id document.merged)) := by
  rw [sound_iff_ids hholds, ids_map_onId (keepsId_merged document)]
  exact (sound_iff_ids h.holds).1 h

/-- The same update at the same time finds its session as it would leave it. -/
theorem step_update_again (h : Sound s sessions) (hopen : s.closed = false)
    (hrefusal : s.table.refusal = none) (hx : x ∈ sessions) (hid : x.id = session.id)
    (hdocument : session.StoredFrom s.cipher s.nonces now document) (hend : ¬ session.EndsEarly)
    (nonces : Cipher.Nonces) :
    ∃ nonces', (s.merging sessions x document nonces).step now (.update session)
      = (.ok .nothing, { s.merging sessions x document nonces with nonces := nonces' }, []) := by
  obtain ⟨figures, messages, hfigures, -, rfl⟩ := Session.storedFrom_iff.1 hdocument
  -- the second form is encrypted from another nonces, but no update stores messages
  obtain ⟨again, hagain⟩ : ∃ again, session.StoredFrom s.cipher nonces now again :=
    Session.exists_storedFrom_iff.2 (Session.exists_storedFrom_iff.1 ⟨_, hdocument⟩)
  obtain ⟨figures', messages', hfigures', -, rfl⟩ := Session.storedFrom_iff.1 hagain
  obtain rfl : figures' = figures := Option.some.inj (hfigures'.symm.trans hfigures)
  have hsound : Sound (s.merging sessions x (session.storedWith now figures' messages) nonces)
      (sessions.map (onId session.id (session.storedWith now figures' messages).merged)) :=
    h.map_merged session.id _ rfl
  have hmem : (session.storedWith now figures' messages).merged x
      ∈ sessions.map (onId session.id (session.storedWith now figures' messages).merged) :=
    List.mem_map.2 ⟨x, hx, onId_of_eq hid⟩
  obtain ⟨nonces', hstep⟩ := step_update_ok hsound hopen hrefusal hmem hid hagain hend
  refine ⟨nonces', hstep.trans ?_⟩
  have hidle : ((session.storedWith now figures' messages').endTime.isSome
      && ((session.storedWith now figures' messages).merged x).endTime.isNone) = false := by
    show (session.endTime.isSome && (x.endTime.or session.endTime).isNone) = false
    cases x.endTime <;> cases session.endTime <;> rfl
  have hsame : (sessions.map (onId session.id
        (session.storedWith now figures' messages).merged)).map
        (onId (session.storedWith now figures' messages').id
          (session.storedWith now figures' messages').merged)
      = sessions.map (onId session.id (session.storedWith now figures' messages).merged) := by
    rw [List.map_map]
    refine List.map_congr_left fun y hy => ?_
    show onId session.id _ (onId session.id _ y) = _
    by_cases hyid : y.id = session.id
    · rw [onId_of_eq hyid, onId_of_eq ((keepsId_merged _ y).trans hyid), merged_again]
    · rw [onId_of_ne hyid, onId_of_ne hyid]
  rw [merging_of_idle hidle, hsame]
  rfl

/-! ## The whole table -/

/-- The rows after an update. -/
theorem forall₂_updated (h : Sound s sessions) (hplain : ∀ y ∈ sessions, y.HasPlainYears)
    (hdocument : session.StoredFrom s.cipher s.nonces now document) {table : Table}
    (hrows : table.Holds (sessions.map (onId document.id document.merged))) :
    List.Forall₂ (fun old new =>
        if old.id = session.id then Row.Updated now session document old new else new = old)
      s.table.rows table.rows := by
  rw [hdocument.storedAs.id] at hrows
  exact forall₂_onId h (fun y hy _ => updated_ofStored (hplain y hy) hdocument) hrows

/-- An update succeeds and writes the fields of its session, and once more it writes nothing. -/
structure Updates (s : Store) (now : Timestamp) (session : Session) (document : StoredSession)
    (row : Row) (s' : Store) : Prop where
  step : s.step now (.update session) = (.ok .nothing, s', [])
  rows : List.Forall₂ (fun old new =>
      if old.id = session.id then Row.Updated now session document old new else new = old)
    s.table.rows s'.table.rows
  rest : s' = { s with
    nonces := s'.nonces
    table := { s.table with rows := s'.table.rows }
    counters := s.counters.finishIf (session.endTime.isSome && row.endTime.isNone)
    events := [] }
  again : ∃ nonces, s'.step now (.update session) = (.ok .nothing, { s' with nonces := nonces }, [])

/-- After every run whose times have plain years, with whatever faults it met, an update of a
session that is there succeeds if its session does not end before it starts, its contents can
be encrypted and its response times have figures. It changes the row of the session as
`Row.Updated` says and no other row, it counts an end if it was the one to bring it, and
repeated at the same time it changes nothing. -/
theorem update_after_run (settings : Settings) (cipher : ContentCipher) (nonces : Cipher.Nonces)
    (calls : List Call) (hcalls : ∀ c ∈ calls, ¬ c.operation.IsOverwrite ∧ c.HasPlainYears)
    (hopen : ((fresh settings cipher nonces).after calls).closed = false)
    (hrefusal : ((fresh settings cipher nonces).after calls).table.refusal = none)
    (now : Timestamp) (session : Session)
    (hmeasured : (responseFigures session.responseTimes).isSome)
    (hsealable : ∀ m ∈ session.messages,
      ((fresh settings cipher nonces).after calls).cipher.Encryptable m.content)
    (hordered : ¬ session.EndsEarly) (row : Row)
    (hrow : ((fresh settings cipher nonces).after calls).table.row? session.id = some row) :
    ∃ document s',
      session.StoredFrom ((fresh settings cipher nonces).after calls).cipher
        ((fresh settings cipher nonces).after calls).nonces now document ∧
      Updates ((fresh settings cipher nonces).after calls) now session document row s' := by
  obtain ⟨sessions, h, hplain⟩ := (sound_fresh settings cipher nonces).hasPlainYears_after hcalls
  obtain ⟨hmem, hid⟩ := Table.mem_of_row? hrow
  obtain ⟨x, hx, rfl⟩ := exists_of_mem_rows h.holds hmem
  obtain ⟨document, hdocument⟩ : ∃ document, session.StoredFrom
      ((fresh settings cipher nonces).after calls).cipher
      ((fresh settings cipher nonces).after calls).nonces now document :=
    Session.exists_storedFrom_iff.2 ⟨hmeasured, hsealable⟩
  obtain ⟨nonces', hstep⟩ := step_update_ok h hopen hrefusal hx hid hdocument hordered
  have hactive : (Row.ofStored x).endTime.isNone = x.endTime.isNone := Option.isNone_map
  refine ⟨document, _, hdocument, hstep, forall₂_updated h hplain hdocument rfl, ?_,
    step_update_again h hopen hrefusal hx hid hdocument hordered nonces'⟩
  rw [merging, hdocument.storedAs.endTime, hactive]

/-- A session that started five minutes late and ended five minutes later. -/
def lateAndEnded : Session :=
  { Session.start "a" "u" fiveMinutes with endTime := some tenMinutes }

theorem update_after_begun : ∃ row document s',
    ((fresh .standard .disabled (.counting 0)).after [begun]).table.row? "a" = some row ∧
      Updates ((fresh .standard .disabled (.counting 0)).after [begun]) tenMinutes lateAndEnded
        document row s' := by
  have hcalls : ∀ c ∈ [begun], ¬ c.operation.IsOverwrite ∧ c.HasPlainYears := by
    intro c hc
    have h := startedLater_plain c (List.mem_append_left _ hc)
    exact ⟨fun hdirect => h.2.1 (.of_overwrite hdirect), h.2.2⟩
  have hrow : ((fresh .standard .disabled (.counting 0)).after [begun]).table.row? "a"
      = some (Row.ofStored ((Session.start "a" "u" .epoch).storedWith .epoch (0, 0) [])) := by
    decide +kernel
  have hordered : ¬ lateAndEnded.EndsEarly := by
    rintro ⟨finish, hfinish, hbefore⟩
    cases hfinish
    exact absurd hbefore (by decide)
  obtain ⟨document, s', -, h⟩ := update_after_run .standard .disabled (.counting 0) [begun] hcalls
    (by decide +kernel) (by decide +kernel) tenMinutes lateAndEnded (by decide)
    (fun m hm => absurd hm List.not_mem_nil) hordered _ hrow
  exact ⟨_, document, s', hrow, h⟩

end Store

end ChatArchive
