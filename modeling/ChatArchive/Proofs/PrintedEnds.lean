import ChatArchive.Command.Run
import ChatArchive.Proofs.FailedEnds
import ChatArchive.Proofs.Listings

/-!
# The end that is printed and the end that is stored

Ending a session stores the time that it is given only if no end is recorded yet. The command
that ends a session prints the time that it has given, whether that was stored or not, and the
command that shows the session prints what is stored. So the two print one end if the session
was active, and otherwise only if the clock happens to show the end that was recorded first.

None of this depends on how the database came about. Its ids are distinct, because the table
sees to that, and its rows can be read.
-/

namespace ChatArchive

open Time

/-! ## The row that an end leaves -/

namespace Store

variable {s : Store} {t t' : Table} {id : String} {time : Timestamp} {row : Row}

/-- Ending goes by the row of the id: its end is recorded, unless there is one. -/
theorem ending_row {finish : String} {found : Ending}
    (hdistinct : t.rows.Pairwise (·.id ≠ ·.id)) (h : ending id finish t = .ok (found, t')) :
    ∃ row, t.row? id = some row ∧
      found = ⟨row.startTime, row.endTime.getD finish, row.endTime.isNone⟩ ∧
      t' = { t with rows := t.rows.map (Row.closing id finish) } := by
  cases hrow : t.row? id with
  | none =>
      have hopen : t.rows.find? (isOpen id) = none := by
        rw [Table.row?, List.find?_eq_none] at hrow
        refine List.find?_eq_none.2 fun row hmem hselected => ?_
        rw [isOpen, Bool.and_eq_true] at hselected
        exact hrow row hmem hselected.1
      rw [ending, hopen, hrow] at h
      cases h
  | some row =>
      rw [ending, find?_isOpen hdistinct hrow, hrow] at h
      refine ⟨row, rfl, ?_⟩
      cases hend : row.endTime with
      | none =>
          rw [hend] at h
          split at h
          · next hsome =>
              cases hsome
              split at h
              · next hset =>
                  cases h
                  exact ⟨rfl, setEnd_rows hset⟩
              · cases h
          · next hnone => cases hnone
      | some e =>
          rw [hend] at h
          have hended : row.endTime.isNone = false := by
            rw [hend]
            rfl
          simp only [Option.isNone_some, Bool.false_eq_true, if_false] at h
          cases h
          rw [map_closing_of_ended hdistinct hrow hended]
          exact ⟨by rw [hend]; rfl, rfl⟩

theorem settingDuration_rows {duration : Int64} {u : Unit}
    (h : settingDuration id duration t = .ok (u, t')) :
    t' = { t with rows := t.rows.map (Row.measuring id duration) } := by
  rw [settingDuration] at h
  split at h
  · next hupdate =>
      cases h
      rw [Table.update_map hupdate]
      simp only [decide_eq_true_eq]
      rfl
  · cases h

/-- Once the end is recorded, success means that both times were read, and that at most the
duration was written. -/
theorem afterEnding_ok {found : Ending} {p : Progress} {after : Store}
    (h : s.perform (afterEnding id found p) = (.ok (), after)) :
    (∃ time, Row.readTime found.endTime = .ok time) ∧
      (after.table = s.table ∨
        ∃ duration, after.table = { s.table with
          rows := s.table.rows.map (Row.measuring id duration) }) := by
  constructor
  · rcases afterEnding_cases id found p s with ⟨text, fault, hfailed, -⟩ | ⟨-, hread, -⟩
    · rw [hfailed] at h
      cases h
    · exact hread
  · obtain ⟨answer, events, table, hafter, htable⟩ := perform_afterEnding id found p s
    rw [hafter] at h
    cases h
    refine htable.imp_right fun ⟨duration, pauses, hset⟩ => ⟨duration, ?_⟩
    obtain ⟨changed, hchanged, rfl⟩ := of_after_ok hset
    rw [settingDuration_rows hchanged]
    rfl

/-- A session that was ended has a row whose end can be read, and it is the one that was
recorded first. Only its duration may have changed besides. -/
theorem finish_ok {after : Store} (hdistinct : s.table.rows.Pairwise (·.id ≠ ·.id))
    (h : s.perform (finish id time) = (.ok (), after)) :
    id ≠ "" ∧ ∃ row recorded, s.table.row? id = some row ∧
      Row.readTime (row.endTime.getD time.toColumn) = .ok recorded ∧
      ∃ duration, after.table.row? id = some
        { row with endTime := some (row.endTime.getD time.toColumn), duration := duration } := by
  rw [perform_finish_eq] at h
  rcases perform_requireId id s with hid | ⟨e, hid⟩
  · have hnamed : id ≠ "" := by
      intro hempty
      rw [hempty] at hid
      cases hid
    rw [perform_bind_ok hid] at h
    rcases perform_retryingFrom "end_session" s.endProgress (ending id time.toColumn) s with
      ⟨found, p, table, events, -, hafter, hretry⟩ | ⟨e, events, hretry⟩
    · rw [perform_bind_ok hretry] at h
      obtain ⟨changed, hend, rfl⟩ := of_after_ok hafter
      obtain ⟨row, hrow, rfl, rfl⟩ := ending_row (t := s.table.paused p.pauses) hdistinct hend
      obtain ⟨⟨recorded, hrecorded⟩, htable⟩ := afterEnding_ok h
      refine ⟨hnamed, row, recorded, hrow, hrecorded, ?_⟩
      rcases htable with htable | ⟨duration, htable⟩
      · rw [htable]
        exact ⟨row.duration, Table.row?_closed hrow time.toColumn⟩
      · rw [htable]
        exact ⟨duration, Table.row?_concluded hrow time.toColumn duration⟩
    · rw [perform_bind_error hretry] at h
      cases h
  · rw [perform_bind_error hid] at h
    cases h

end Store

/-! ## Reading that row -/

theorem Row.toStored_ended {row : Row} {stored : StoredSession} (h : row.toStored = .ok stored)
    {text : String} {finish : Timestamp} (hread : readTime text = .ok finish)
    (duration : Int64) :
    { row with endTime := some text, duration := duration : Row }.toStored
      = .ok { stored with endTime := some finish, duration := duration } := by
  obtain ⟨hmessages, hstart, -, hactivity, hstored⟩ := toStored_eq_ok.1 h
  refine toStored_eq_ok.2 ⟨hmessages, hstart, ?_, hactivity, ?_⟩
  · rw [readTime?, hread]
    rfl
  · have hended := congrArg (fun x : StoredSession =>
      { x with endTime := some finish, duration := duration }) hstored
    exact hended

/-- What is read of an end is the one that was recorded, or else the time that was given. -/
theorem Row.recorded_eq {row : Row} {stored : StoredSession} (h : row.toStored = .ok stored)
    {time recorded : Timestamp}
    (hread : readTime (row.endTime.getD time.toColumn) = .ok recorded) :
    recorded = stored.endTime.getD time := by
  obtain ⟨-, -, hend, -, -⟩ := toStored_eq_ok.1 h
  cases hcolumn : row.endTime with
  | none =>
      rw [hcolumn, readTime?] at hend
      rw [hcolumn, Option.getD_none] at hread
      -- Columns take any year, but only those of plain years are read: so `time` has one.
      have hplain := (readTime_column_iff time).1 ⟨recorded, hread⟩
      rw [readTime_column hplain, Except.ok.injEq] at hread
      rw [← Except.ok.inj hend, ← hread]
      rfl
  | some text =>
      rw [hcolumn, Option.getD_some] at hread
      rw [hcolumn, readTime?, hread] at hend
      rw [← Except.ok.inj hend]
      rfl

/-! ## Command lines -/

namespace Command

/-- The table that a command works on. -/
def Site.table (site : Site) : Table := (site.tables.lookup site.databasePath).getD .empty

/-- The settings that a command works with. -/
def Site.settings (site : Site) : Settings := (Settings.load site.settingsText).settings

/-- The store that a command works with, if its key is accepted. -/
def Site.store (site : Site) (cipher : ContentCipher) (nonces : Cipher.Nonces) : Store :=
  { Store.fresh site.settings cipher nonces with
    table := site.table
    events := site.events (Settings.load site.settingsText) }

/-- Rows have ids of their own and can be read. -/
structure Site.IsReadable (site : Site) : Prop where
  distinct : site.table.rows.Pairwise (·.id ≠ ·.id)
  readable : ∀ row ∈ site.table.rows, ∃ stored, row.toStored = .ok stored

/-- A database that holds sessions of plain years is readable. -/
theorem isReadable_of_holds {site : Site} {sessions : List StoredSession}
    (h : site.table.Holds sessions) (hdistinct : sessions.Pairwise (·.id ≠ ·.id))
    (hplain : ∀ x ∈ sessions, x.HasPlainYears) : site.IsReadable := by
  have hrows : site.table.rows = sessions.map Row.ofStored := h
  constructor
  · rw [hrows, List.pairwise_map]
    exact hdistinct
  · intro row hrow
    rw [hrows] at hrow
    obtain ⟨x, hx, rfl⟩ := List.mem_map.1 hrow
    exact (Row.toStored_ofStored_iff x).2 (hplain x hx)

/-- A command succeeded and printed a tree as JSON. -/
def Output.Prints (output : Output) (j : Json) : Prop :=
  output.status = 0 ∧ output.text = jsonText j

variable {site : Site} {i : Invocation} {now : Timestamp} {nonces : Cipher.Nonces}
  {cipher : ContentCipher} {text : String} {after : Store}

theorem Site.table_withTable (site : Site) (table : Table) :
    (site.withTable site.databasePath table).table = table := by
  have hpath : (site.withTable site.databasePath table).databasePath = site.databasePath := rfl
  rw [Site.table, hpath, withTable, List.lookup_cons_self, Option.getD_some]

/-- Another table does not change the key, nor the settings. -/
theorem Site.cipher_withTable (site : Site) (path : String) (table : Table) :
    (site.withTable path table).cipher (site.withTable path table).settings
      = site.cipher site.settings := rfl

theorem run_of_perform (hcipher : site.cipher site.settings = .ok cipher)
    (h : Store.perform (site.store cipher nonces) (i.request.perform i.json now site.directory)
      = (.ok text, after)) :
    i.run now nonces site = ({ Output.printed text with events := after.events },
      site.withTable site.databasePath after.table) := by
  rw [Site.settings] at hcipher
  rw [Site.store, Site.table, Site.settings] at h
  rw [Invocation.run]
  simp only [hcipher, h]

theorem exists_perform_of_run (h : (i.run now nonces site).1.status = 0) :
    ∃ cipher text after, site.cipher site.settings = .ok cipher ∧
      Store.perform (site.store cipher nonces) (i.request.perform i.json now site.directory)
        = (.ok text, after) := by
  cases hcipher : site.cipher site.settings with
  | error output =>
      have hfailed : output.status = 1 := by
        rw [Site.cipher] at hcipher
        split at hcipher
        · cases hcipher
        · cases hcipher
          rfl
      rw [Site.settings] at hcipher
      rw [Invocation.run] at h
      simp only [hcipher, hfailed] at h
      cases h
  | ok cipher =>
      rcases hperform : Store.perform (site.store cipher nonces)
        (i.request.perform i.json now site.directory) with ⟨answer, after⟩
      cases answer with
      | ok text => exact ⟨cipher, text, after, rfl, hperform⟩
      | error reason =>
          rw [Site.settings] at hcipher
          rw [Site.store, Site.table, Site.settings] at hperform
          rw [Invocation.run] at h
          simp only [hcipher, hperform] at h
          cases reason <;> cases h

/-! ## What is printed -/

theorem get?_endedJson (id : String) (time : Timestamp) :
    (endedJson id time).get? "end_time" = some (timeJson time) := by
  rfl

theorem get?_sessionJson (session : Session) :
    (Session.encoding.write session).get? "end_time"
      = some ((Json.Encoding.option Json.Encoding.timestamp).write session.endTime) := by
  rfl

theorem timeJson_injective {a b : Timestamp} (h : timeJson a = timeJson b) : a = b := by
  have htext : String.ofList a.shortText = String.ofList b.shortText := Json.string.inj h
  have hchars : a.shortText = b.shortText := String.ofList_injective htext
  have hread := a.parseRelaxed_shortText
  rw [hchars, b.parseRelaxed_shortText, Except.ok.injEq] at hread
  exact hread.symm

theorem get?_end_eq_iff (id : String) (time : Timestamp) (session : Session)
    (finish : Timestamp) :
    (endedJson id time).get? "end_time"
        = (Session.encoding.write { session with endTime := some finish }).get? "end_time" ↔
      finish = time := by
  rw [get?_endedJson, get?_sessionJson, Option.some.injEq]
  exact ⟨fun h => (timeJson_injective h).symm, fun h => by rw [h]; rfl⟩

/-- Showing a session prints what its row is read as. -/
theorem prints_transcript {id : String} {row : Row} {stored : StoredSession}
    (hcipher : site.cipher site.settings = .ok cipher) (hid : id ≠ "")
    (hrow : site.table.row? id = some row) (hstored : row.toStored = .ok stored)
    (now : Timestamp) (nonces : Cipher.Nonces) :
    (Invocation.run ⟨.transcript id, true⟩ now nonces site).1.Prints
      (Session.encoding.write (stored.toSession cipher)) := by
  have hget : ((site.store cipher nonces).perform (Store.get id)).1
      = .ok (stored.toSession cipher) :=
    Store.answers_get.2 ⟨rfl, hid, row, stored, hrow, hstored, rfl⟩
  rw [run_of_perform hcipher (Store.perform_bind_ok (Prod.ext hget rfl))]
  exact ⟨rfl, rfl⟩

/-- Ending a session prints the time, and leaves a site with the same key where the row of the
session is read with the end that was recorded first. -/
theorem prints_finish {id : String} (hreadable : site.IsReadable)
    (h : (Invocation.run ⟨.finish id, true⟩ now nonces site).1.status = 0) :
    (Invocation.run ⟨.finish id, true⟩ now nonces site).1.Prints (endedJson id now) ∧
      id ≠ "" ∧ ∃ cipher row stored table, site.cipher site.settings = .ok cipher ∧
        site.table.row? id = some row ∧ row.toStored = .ok stored ∧
        (Invocation.run ⟨.finish id, true⟩ now nonces site).2
          = site.withTable site.databasePath table ∧
        ∃ row' duration, table.row? id = some row' ∧ row'.toStored = .ok { stored with
          endTime := some (stored.endTime.getD now), duration := duration } := by
  obtain ⟨cipher, text, after, hcipher, hperform⟩ := exists_perform_of_run h
  rcases hfinish : (site.store cipher nonces).perform (Store.finish id now) with ⟨answer, ended⟩
  have hbind : (Invocation.mk (.finish id) true).request.perform true now site.directory
      = (do Store.finish id now; pure (jsonText (endedJson id now))) := rfl
  cases answer with
  | error e =>
      rw [hbind, Store.perform_bind_error hfinish] at hperform
      cases hperform
  | ok u =>
      have hrun := run_of_perform hcipher hperform
      rw [hbind, Store.perform_bind_ok hfinish, Store.perform_pure, Prod.mk.injEq,
        Except.ok.injEq] at hperform
      obtain ⟨rfl, rfl⟩ := hperform
      obtain ⟨hid, row, recorded, hrow, hrecorded, duration, hafter⟩ :=
        Store.finish_ok hreadable.distinct hfinish
      obtain ⟨stored, hstored⟩ := hreadable.readable row (Table.mem_of_row? hrow).1
      have hread := Row.toStored_ended hstored hrecorded duration
      rw [Row.recorded_eq hstored hrecorded] at hread
      rw [hrun]
      exact ⟨⟨rfl, rfl⟩, hid, cipher, row, stored, _, hcipher, hrow, hstored, rfl, _, duration,
        hafter, hread⟩

/-- A session is shown as its row is read, and after it was ended as it was shown before, with the
end that was recorded first. -/
theorem prints_around_finish {id : String} (hreadable : site.IsReadable)
    (h : (Invocation.run ⟨.finish id, true⟩ now nonces site).1.status = 0) :
    ∃ cipher row stored, site.table.row? id = some row ∧ row.toStored = .ok stored ∧
      (∀ now' nonces', (Invocation.run ⟨.transcript id, true⟩ now' nonces' site).1.Prints
        (Session.encoding.write (stored.toSession cipher))) ∧
      ∀ now' nonces', (Invocation.run ⟨.transcript id, true⟩ now' nonces'
          (Invocation.run ⟨.finish id, true⟩ now nonces site).2).1.Prints
        (Session.encoding.write
          { stored.toSession cipher with endTime := some (stored.endTime.getD now) }) := by
  obtain ⟨-, hid, cipher, row, stored, table, hcipher, hrow, hstored, hafter, row', duration,
    hrow', hstored'⟩ := prints_finish hreadable h
  refine ⟨cipher, row, stored, hrow, hstored,
    prints_transcript hcipher hid hrow hstored, ?_⟩
  rw [← site.table_withTable table] at hrow'
  rw [← site.cipher_withTable site.databasePath table] at hcipher
  have hsession : StoredSession.toSession cipher
      { stored with endTime := some (stored.endTime.getD now), duration := duration }
      = { stored.toSession cipher with endTime := some (stored.endTime.getD now) } := rfl
  have hprints := prints_transcript hcipher hid hrow' hstored'
  rw [hsession] at hprints
  rw [hafter]
  exact hprints

theorem runLine_of_read {words : List String} (h : read words = .ok i) (now : Timestamp)
    (nonces : Cipher.Nonces) (site : Site) :
    runLine words now nonces site = i.run now nonces site := by
  rw [runLine, h]

/-- Whatever has happened to a session: if ending it succeeds, what is printed is the clock, and
from then on the session is shown with the end that it was shown with before, or with the
clock if it was active. So what was printed is what is shown only if the session was active
or the clock shows its end. -/
theorem end_printed_is_the_clock (site : Site) (hreadable : site.IsReadable) (id : String)
    (words words' : List String) (hwords : read words = .ok ⟨.finish id, true⟩)
    (hwords' : read words' = .ok ⟨.transcript id, true⟩) (now : Timestamp)
    (nonces : Cipher.Nonces) (hended : (runLine words now nonces site).1.status = 0) :
    (runLine words now nonces site).1.Prints (endedJson id now) ∧
    ∃ session : Session,
      (∀ now' nonces', (runLine words' now' nonces' site).1.Prints
        (Session.encoding.write session)) ∧
      (∀ now' nonces', (runLine words' now' nonces' (runLine words now nonces site).2).1.Prints
        (Session.encoding.write { session with endTime := some (session.endTime.getD now) })) ∧
      ((endedJson id now).get? "end_time" = (Session.encoding.write
          { session with endTime := some (session.endTime.getD now) }).get? "end_time" ↔
        session.endTime = none ∨ session.endTime = some now) := by
  rw [runLine_of_read hwords] at hended ⊢
  simp only [runLine_of_read hwords']
  obtain ⟨cipher, row, stored, -, -, hbefore, hafter⟩ := prints_around_finish hreadable hended
  refine ⟨(prints_finish hreadable hended).1, stored.toSession cipher, hbefore, hafter, ?_⟩
  rw [get?_end_eq_iff]
  have hend : (stored.toSession cipher).endTime = stored.endTime := rfl
  rw [hend]
  cases stored.endTime <;> simp

/-- A site without settings and without a key. -/
def Site.bare : Site := ⟨"/data", [], none, []⟩

/-- Such a site with the database that `plainCalls` leaves. -/
def Site.plain : Site :=
  Site.bare.withTable Site.bare.databasePath
    ((Store.fresh .standard .disabled (.counting 0)).after Store.plainCalls).table

theorem isReadable_plain : Site.plain.IsReadable := by
  have hholds : Site.plain.table.Holds Store.plainSessions := by
    rw [Site.plain, Site.table_withTable]
    exact Store.holds_plainSessions
  have hepoch : Timestamp.epoch.HasPlainYear := by decide
  refine isReadable_of_holds hholds (by decide) fun x hx => ?_
  simp only [Store.plainSessions, List.mem_cons, List.not_mem_nil, or_false] at hx
  rcases hx with rfl | rfl
  · exact ⟨hepoch, by simp [Store.bareStored, hepoch], by simp [Store.bareStored, hepoch]⟩
  · exact ⟨hepoch, by simp [Store.bareStored], by simp [Store.bareStored, hepoch]⟩

theorem end_printed_is_the_clock_plain :
    (runLine ["sessions", "end", "b", "--json"] Store.tenMinutes (.counting 0) .plain).1.Prints
        (endedJson "b" Store.tenMinutes) ∧
      ∃ session : Session,
        (runLine ["sessions", "show", "b", "--json"] Store.tenMinutes (.counting 0)
          (runLine ["sessions", "end", "b", "--json"] Store.tenMinutes (.counting 0)
            .plain).2).1.Prints
        (Session.encoding.write
          { session with endTime := some (session.endTime.getD Store.tenMinutes) }) := by
  obtain ⟨hprinted, session, -, hshown, -⟩ := end_printed_is_the_clock .plain isReadable_plain "b"
    ["sessions", "end", "b", "--json"] ["sessions", "show", "b", "--json"] (by decide +kernel)
    (by decide +kernel) Store.tenMinutes (.counting 0) (by decide +kernel)
  exact ⟨hprinted, session, hshown Store.tenMinutes (.counting 0)⟩

/-- A session that has ended is ended once more: the time that is printed is not the end that is
shown. -/
theorem end_printed_not_shown :
    (runLine ["sessions", "end", "a", "--json"] Store.tenMinutes (.counting 0) .plain).1.Prints
        (endedJson "a" Store.tenMinutes) ∧
      ∃ session : Session,
        (runLine ["sessions", "show", "a", "--json"] Store.tenMinutes (.counting 0)
          (runLine ["sessions", "end", "a", "--json"] Store.tenMinutes (.counting 0)
            .plain).2).1.Prints
        (Session.encoding.write session) ∧
      (endedJson "a" Store.tenMinutes).get? "end_time"
        ≠ (Session.encoding.write session).get? "end_time" := by
  have hwords : read ["sessions", "end", "a", "--json"] = .ok ⟨.finish "a", true⟩ := by
    decide +kernel
  have hwords' : read ["sessions", "show", "a", "--json"] = .ok ⟨.transcript "a", true⟩ := by
    decide +kernel
  have hended : (Invocation.run ⟨.finish "a", true⟩ Store.tenMinutes (.counting 0) .plain).1.status
      = 0 := by
    decide +kernel
  rw [runLine_of_read hwords, runLine_of_read hwords']
  obtain ⟨cipher, row, stored, hrow, hstored, -, hshown⟩ :=
    prints_around_finish isReadable_plain hended
  have hrow' : Site.plain.table.row? "a"
      = some (Row.ofStored (Store.bareStored "a" (some .epoch) [])) := by
    rw [Site.plain, Site.table_withTable]
    decide +kernel
  have hread : Row.readTime (row.endTime.getD Store.tenMinutes.toColumn) = .ok .epoch := by
    rw [Option.some.inj (hrow.symm.trans hrow')]
    exact Row.readTime_column (by decide)
  have hrecorded := Row.recorded_eq hstored hread
  refine ⟨(prints_finish isReadable_plain hended).1, _, hshown Store.tenMinutes (.counting 0), ?_⟩
  rw [ne_eq, get?_end_eq_iff, ← hrecorded]
  decide

end Command

end ChatArchive
