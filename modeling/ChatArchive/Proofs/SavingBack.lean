import ChatArchive.Proofs.Durations
import ChatArchive.Proofs.Readable
import ChatArchive.Proofs.Storing

/-!
# Saving back what was loaded

A session that is loaded and saved straight back meets its own row. The update sets
thirteen columns, and all but four of them are set to what they held: the duration of an
active session is measured anew, the figures of the response times are those of the one
sample that loading leaves, and a token count is what the column shows of it.

Nothing can refuse the update but the check of the end: a session may have been ended
before its start, which ending allows and updating does not. That the contents of the
messages can be encrypted again is the invariant of the run: each of them was encrypted
by the same cipher.
-/

namespace ChatArchive

open Time

/-- The sessions that an answer loads. -/
def Answer.loaded : Answer → List Session
  | .session x => [x]
  | .sessions xs => xs
  | _ => []

/-- An operation that loads sessions. -/
def Operation.Loads : Operation → Prop
  | .get _ | .active => True
  | _ => False

theorem Operation.Loads.reads {operation : Operation} (h : operation.Loads) : operation.Reads := by
  cases operation <;> trivial

/-- A session that has ended before it started. -/
def Session.EndsEarly (session : Session) : Prop :=
  ∃ finish ∈ session.endTime, finish < session.startTime

/-- The figure that loading leaves of the response times in a row. -/
def Row.figure (row : Row) : Int64 :=
  if 0 < row.maxResponseMs ∧ 0 < row.avgResponseMs then row.avgResponseMs else 0

/-- What a row has become when its session was loaded and saved back. Nothing is said
about the duration of an active session and about tokens that the column shows as
negative. -/
structure Row.Resaved (old new : Row) : Prop where
  column : ∀ column, column ≠ .duration → column ≠ .totalTokens → column ≠ .maxResponseMs →
    column ≠ .avgResponseMs → new.get column = old.get column
  duration : old.endTime ≠ none → new.duration = old.duration
  totalTokens : 0 ≤ old.totalTokens → new.totalTokens = old.totalTokens
  maxResponseMs : new.maxResponseMs = old.figure
  avgResponseMs : new.avgResponseMs = old.figure

/-- A stored session as operations write it: its messages were encrypted by the cipher, and
it tells when it was last active. -/
structure StoredSession.WrittenBy (cipher : ContentCipher) (x : StoredSession) : Prop where
  messages : ∀ s ∈ x.messages, ∃ m : Message, ContentCipher.Draws (m.toStored cipher) s
  active : ∃ t, x.lastActivity = some t

namespace Store

variable {s : Store} {sessions : List StoredSession} {cipher : ContentCipher} {now : Timestamp}
  {operation read : Operation} {x y : StoredSession} {session : Session} {answer : Answer}

/-! ## What a run writes -/

theorem Transition.writtenBy {id : String} {answer : Except Abort Answer}
    {before after : Option StoredSession}
    (h : Transition cipher now id operation answer before after)
    (hbefore : ∀ x ∈ before, x.WrittenBy cipher) : ∀ x ∈ after, x.WrittenBy cipher := by
  cases h with
  | kept x hspares => exact hbefore
  | @created session stored hstored hid =>
      intro x hx
      cases hx
      refine ⟨fun m hm => ?_, ⟨_, hstored.lastActivity⟩⟩
      obtain ⟨plain, -, hplain⟩ := exists_of_forall₂_right hstored.messages hm
      exact ⟨plain, hplain⟩
  | @updated session stored old hstored hid =>
      intro x hx
      cases hx
      obtain ⟨hmessages, t, ht⟩ := hbefore old rfl
      refine ⟨hmessages, ?_⟩
      simp only [StoredSession.merged, StoredSession.refreshed, hstored.lastActivity, ht,
        StoredSession.laterActivity]
      split
      · exact ⟨_, rfl⟩
      · exact ⟨_, rfl⟩
  | @added message stored old hstored =>
      intro x hx
      cases hx
      refine ⟨fun m hm => ?_, ⟨now, rfl⟩⟩
      rcases List.mem_append.1 hm with hm | hm
      · exact (hbefore old rfl).messages m hm
      · rw [List.mem_singleton.1 hm]
        exact ⟨message, hstored⟩
  | ended time duration answer old =>
      intro x hx
      cases hx
      exact ⟨(hbefore old rfl).messages, (hbefore old rfl).active⟩

theorem refusal_after {calls : List Call} (h : s.table.refusal = none)
    (hcalls : ∀ c ∈ calls, ¬ c.operation.IsFault) : (s.after calls).table.refusal = none := by
  induction calls generalizing s with
  | nil => exact h
  | cons c calls ih =>
      exact ih (step_refusal h (hcalls c List.mem_cons_self))
        fun d hd => hcalls d (List.mem_cons_of_mem c hd)

/-! ## What a read loads -/

theorem step_reads (hreads : read.Reads) : (s.step now read).2.1 = { s with events := [] } := by
  obtain ⟨answer, events, h⟩ := Quiet.run hreads now { s with events := [] }
  rw [step, h]

/-- What is loaded is a stored session with plain years. -/
theorem loaded_of_step (h : Sound s sessions) (hloads : read.Loads)
    (hanswer : (s.step now read).1 = .ok answer) (hmem : session ∈ answer.loaded) :
    s.closed = false ∧ ∃ x ∈ sessions, x.HasPlainYears ∧ x.shown.toSession s.cipher = session := by
  have hrow : ∀ row ∈ s.table.rows, ∀ stored, row.toStored = .ok stored →
      stored.toSession s.cipher = session →
      ∃ x ∈ sessions, x.HasPlainYears ∧ x.shown.toSession s.cipher = session := by
    intro row hrow stored hstored hsession
    obtain ⟨x, hx, rfl⟩ := exists_of_mem_rows h.holds hrow
    have hplain := (Row.toStored_ofStored_iff x).1 ⟨stored, hstored⟩
    rw [Row.toStored_shown hplain] at hstored
    cases hstored
    exact ⟨x, hx, hplain, hsession⟩
  cases read with
  | get id =>
      obtain ⟨hopen, -, row, stored, hfound, hstored, rfl⟩ := step_get_ok.1 hanswer
      exact ⟨hopen, hrow row (List.mem_of_find?_eq_some hfound) stored hstored
        (List.mem_singleton.1 hmem).symm⟩
  | active =>
      obtain ⟨hopen, loaded, hloaded, rfl⟩ := step_active_ok.1 hanswer
      obtain ⟨row, hactive, stored, hstored, hsession⟩ := exists_of_forall₂_right hloaded hmem
      exact ⟨hopen, hrow row (mem_rows_of_mem_activeRows hactive) stored hstored hsession⟩
  | _ => exact hloads.elim

/-! ## What an update changes -/

theorem setEnd_unrefused {t : Table} (hrefusal : t.refusal = none) (id finish : String) :
    ∃ n t', setEnd t id finish = .ok (n, t') :=
  ⟨_, _, Table.update_unrefused hrefusal _ _ _⟩

/-- Statements that nothing refuses update every session that is there. -/
theorem updating_unrefused {t : Table} (hrefusal : t.refusal = none) {row new : Row}
    (hrow : row ∈ t.rows) (hid : row.id = new.id) :
    ∃ ended t', updating new t = .ok (ended, t') := by
  have hcount : 0 < t.rows.countP fun r => decide (r.id = new.id) :=
    List.countP_pos_iff.2 ⟨row, hrow, decide_eq_true hid⟩
  obtain ⟨n, hn⟩ := Nat.exists_eq_add_one_of_ne_zero hcount.ne'
  obtain ⟨changed, hchanged, hupdate⟩ : ∃ changed : Table, changed.refusal = none ∧
      t.update updatedColumns (·.id = new.id) (fun old => .ok (updatedRow new old))
        = .ok (n + 1, changed) := by
    refine ⟨_, ?_, (Table.update_unrefused hrefusal _ _ _).trans (by rw [hn])⟩
    exact hrefusal
  rw [updating, hupdate]
  cases hend : new.endTime with
  | none => exact ⟨false, changed, rfl⟩
  | some finish =>
      obtain ⟨k, closed, hset⟩ := setEnd_unrefused hchanged new.id finish
      refine ⟨decide (0 < k), closed, ?_⟩
      simp only [hset]

theorem updating_rows {t t' : Table} {new : Row} {ended : Bool}
    (h : updating new t = .ok (ended, t')) : t' = { t with rows := t'.rows } := by
  rw [updating] at h
  split at h
  · cases h
  · cases h
  · next n table hn hupdate =>
      obtain ⟨-, rows, rfl, -⟩ := Table.update_rows hupdate
      split at h
      · cases h
        rfl
      · next finish hend =>
          split at h
          · cases h
          · next k closed hset =>
              obtain ⟨-, rows', rfl, -⟩ := Table.update_rows hset
              cases h
              rfl

/-- A stored session that is loaded and stored again, with its figures as they come back. -/
theorem merged_resaved (hactive : ∃ t, x.lastActivity = some t) (figures : Int64 × Int64)
    (messages : List StoredMessage) :
    ((x.shown.toSession cipher).storedWith now figures messages).merged x
      = { x with
          duration := if x.endTime.isNone
            then durationSecs x.startTime (x.endTime.getD now) else x.duration
          totalTokens := x.shown.totalTokens
          maxResponseMs := figures.1
          avgResponseMs := figures.2 } := by
  obtain ⟨t, ht⟩ := hactive
  have hlater : StoredSession.laterActivity x.lastActivity (some (x.lastActivity.getD x.startTime))
      = x.lastActivity := by
    simp only [ht, StoredSession.laterActivity, Option.getD_some, Option.map_some,
      String.lt_irrefl, if_false]
  have hend : x.endTime.or x.endTime = x.endTime := Option.or_self
  show StoredSession.mk _ _ _ _ _ _ (x.endTime.or x.endTime) _ _ _ _ _ _ _ _
    (StoredSession.laterActivity x.lastActivity (some (x.lastActivity.getD x.startTime))) = _
  rw [hlater, hend]
  rfl

/-- The row of what an update has made of a session that was saved back. -/
theorem resaved_ofStored (x : StoredSession) (duration : Int64) :
    Row.Resaved (Row.ofStored x) (Row.ofStored { x with
      duration := if x.endTime.isNone then duration else x.duration
      totalTokens := x.shown.totalTokens
      maxResponseMs := x.figure
      avgResponseMs := x.figure }) where
  column column hduration htokens hmost hmean := by
    cases column <;> first | rfl | contradiction
  duration hended := by
    have hend : ¬ x.endTime.isNone = true := by
      rw [Option.isNone_iff_eq_none]
      exact fun hnone => hended (by rw [Row.ofStored, hnone, Option.map_none])
    exact if_neg hend
  totalTokens hpos := storedTokens_loadedTokens hpos
  maxResponseMs := rfl
  avgResponseMs := rfl

/-! ## Saving back -/

/-- A session that was loaded can be stored again: its figures are at hand, and its
messages are encrypted as they were before. -/
theorem exists_storedFrom_loaded (hx : x.WrittenBy cipher) (nonces : Cipher.Nonces)
    (now : Timestamp) :
    ∃ messages, (x.shown.toSession cipher).StoredFrom cipher nonces now
      ((x.shown.toSession cipher).storedWith now (x.figure, x.figure) messages) := by
  have hfigures : responseFigures (x.shown.toSession cipher).responseTimes
      = some (x.figure, x.figure) := StoredSession.responseFigures_responseTimes x.shown
  have hmessages : ∀ m ∈ (x.shown.toSession cipher).messages, cipher.Encryptable m.content := by
    intro m hm
    obtain ⟨stored, hstored, rfl⟩ := List.mem_map.1 hm
    obtain ⟨plain, hplain⟩ := hx.messages stored hstored
    rw [Message.toMessage_toStored hplain]
    exact ContentCipher.encryptable_of_draws hplain
  obtain ⟨messages, hdraws⟩ := ContentCipher.exists_drawsFrom hmessages nonces
  exact ⟨messages, Session.storedFrom_iff.2 ⟨_, messages, hfigures, hdraws, rfl⟩⟩

theorem hasOpen_eq (h : Sound s sessions) (hx : x ∈ sessions) :
    hasOpen sessions x.id = x.endTime.isNone := by
  rw [Bool.eq_iff_iff, hasOpen, List.any_eq_true]
  constructor
  · rintro ⟨y, hy, hopen⟩
    rw [Bool.and_eq_true, decide_eq_true_eq] at hopen
    rw [← h.eq_of_id hx hy hopen.1]
    exact hopen.2
  · exact fun hopen => ⟨x, hx, by rw [hopen, decide_eq_true rfl]; rfl⟩

/-- A store in which a stored form was merged into the session of its id. -/
def merging (s : Store) (sessions : List StoredSession) (x stored : StoredSession)
    (nonces : Cipher.Nonces) : Store :=
  { s with
    nonces := nonces
    table := { s.table with
      rows := (sessions.map (onId stored.id stored.merged)).map Row.ofStored }
    counters := s.counters.finishIf (stored.endTime.isSome && x.endTime.isNone)
    events := [] }

theorem merging_of_idle {stored : StoredSession}
    (h : (stored.endTime.isSome && x.endTime.isNone) = false) (nonces : Cipher.Nonces) :
    s.merging sessions x stored nonces = { s with
      nonces := nonces
      table := { s.table with
        rows := (sessions.map (onId stored.id stored.merged)).map Row.ofStored }
      events := [] } := by
  rw [merging, h]
  rfl

/-- An update that can be stored succeeds where nothing refuses it. -/
theorem step_update_ok {stored : StoredSession} (h : Sound s sessions) (hopen : s.closed = false)
    (hrefusal : s.table.refusal = none) (hx : x ∈ sessions) (hid : x.id = session.id)
    (hstored : session.StoredFrom s.cipher s.nonces now stored) (hend : ¬ session.EndsEarly) :
    ∃ nonces, s.step now (.update session)
      = (.ok .nothing, s.merging sessions x stored nonces, []) := by
  have hsame : x.id = stored.id := hid.trans hstored.storedAs.id.symm
  have hvalid : validate stored = .ok () := by
    refine validate_eq_ok ?_ ?_
    · rw [← hsame]
      exact h.named x hx
    · rw [hstored.storedAs.endTime, hstored.storedAs.startTime]
      exact fun finish hfinish hbefore => hend ⟨finish, hfinish, hbefore⟩
  have hrow : Row.ofStored x ∈ s.table.rows := by
    rw [h.holds]
    exact List.mem_map_of_mem hx
  obtain ⟨ended, table, hupdate⟩ : ∃ ended table,
      updating (Row.ofStored stored) s.table = .ok (ended, table) :=
    updating_unrefused hrefusal hrow hsame
  obtain ⟨-, hended, hrows⟩ := updating_ok h.holds hupdate
  have htable := updating_rows hupdate
  rw [show table.rows = _ from hrows] at htable
  rw [← hsame, hasOpen_eq h hx] at hended
  obtain ⟨nonces, hperform⟩ :=
    perform_update_ok (s := { s with events := [] }) hopen hstored hvalid hupdate
  refine ⟨nonces, ?_⟩
  rw [step, run, perform_bind_ok hperform, perform_pure, htable, hended]
  rfl

/-- An update succeeds and changes nothing but the row of its session, and that only as far
as saving back changes it. -/
def SavesBack (s : Store) (now : Timestamp) (session : Session) : Prop :=
  ∃ nonces table, s.step now (.update session)
      = (.ok .nothing, { s with nonces := nonces, table := table, events := [] }, []) ∧
    List.Forall₂ (fun old new => if old.id = session.id then Row.Resaved old new else new = old)
      s.table.rows table.rows

/-- An update is refused because of the end of its session, and changes nothing. -/
def RefusesEnd (s : Store) (now : Timestamp) (session : Session) : Prop :=
  ∃ nonces, s.step now (.update session)
    = (.error (.failed (.invalidSession "end time precedes start time")),
      { s with nonces := nonces, events := [] }, [])

/-- The rows after a change of the session of an id: each is as the change leaves it, or as it
was. -/
theorem forall₂_onId (h : Sound s sessions) {R : Row → Row → Prop} {id : String}
    {f : StoredSession → StoredSession}
    (hR : ∀ y ∈ sessions, y.id = id → R (Row.ofStored y) (Row.ofStored (f y))) {table : Table}
    (hrows : table.Holds (sessions.map (onId id f))) :
    List.Forall₂ (fun old new => if old.id = id then R old new else new = old)
      s.table.rows table.rows := by
  rw [h.holds, hrows, List.map_map, List.forall₂_map_left_iff, List.forall₂_map_right_iff,
    List.forall₂_same]
  intro y hy
  show if y.id = id then _ else _
  rw [Function.comp]
  by_cases hid : y.id = id
  · rw [if_pos hid, onId_of_eq hid]
    exact hR y hy hid
  · rw [if_neg hid, onId_of_ne hid]

/-- The rows after an update that saves a session back. -/
theorem forall₂_resaved (h : Sound s sessions) (hx : x ∈ sessions)
    (hactive : ∃ t, x.lastActivity = some t) (messages : List StoredMessage) {table : Table}
    (hrows : table.Holds (sessions.map (onId x.id
      ((x.shown.toSession cipher).storedWith now (x.figure, x.figure) messages).merged))) :
    List.Forall₂ (fun old new => if old.id = x.id then Row.Resaved old new else new = old)
      s.table.rows table.rows := by
  refine forall₂_onId h (fun y hy hid => ?_) hrows
  rw [h.eq_of_id hx hy hid, merged_resaved hactive]
  exact resaved_ofStored x _

/-- Saving back fails for the reason that the session ends before it starts, and for no
other. -/
theorem savesBack_or_refusesEnd (h : Sound s sessions) (hopen : s.closed = false)
    (hrefusal : s.table.refusal = none) (hx : x ∈ sessions) (hwritten : x.WrittenBy s.cipher)
    (now : Timestamp) :
    (¬ (x.shown.toSession s.cipher).EndsEarly → s.SavesBack now (x.shown.toSession s.cipher)) ∧
      ((x.shown.toSession s.cipher).EndsEarly → s.RefusesEnd now (x.shown.toSession s.cipher)) := by
  obtain ⟨messages, hstored⟩ := exists_storedFrom_loaded hwritten s.nonces now
  have hnamed : x.id ≠ "" := h.named x hx
  constructor
  · intro hend
    obtain ⟨nonces, hstep⟩ := step_update_ok h hopen hrefusal hx rfl hstored hend
    have hidle : (((x.shown.toSession s.cipher).storedWith now (x.figure, x.figure)
        messages).endTime.isSome && x.endTime.isNone) = false := by
      show (x.endTime.isSome && x.endTime.isNone) = false
      cases x.endTime <;> rfl
    rw [merging_of_idle hidle] at hstep
    exact ⟨nonces, _, hstep, forall₂_resaved h hx hwritten.active messages rfl⟩
  · intro hend
    obtain ⟨finish, hfinish, hbefore⟩ := hend
    have hvalid : validate ((x.shown.toSession s.cipher).storedWith now (x.figure, x.figure)
        messages) = .error (.invalidSession "end time precedes start time") :=
      validate_eq_error hnamed hfinish hbefore
    obtain ⟨nonces, hperform⟩ :=
      perform_update_invalid (s := { s with events := [] }) hstored hvalid
    exact ⟨nonces, by rw [step, run, perform_bind_error hperform]⟩

/-! ## Runs -/

/-- After every run of ordinary calls without faults, a session that is loaded can be saved
straight back unless it ends before it starts, and then its own row alone is changed:
every column is what it was, but for the duration of an active session and the figures of
the response times, which are reduced to the mean. A session that ends before it starts,
which ending allows, is refused and nothing is changed. -/
theorem loaded_saves_back (settings : Settings) (key : List UInt8) (nonces : Cipher.Nonces)
    (calls : List Call) (hcalls : ∀ c ∈ calls, c.operation.IsOrdinary ∧ ¬ c.operation.IsFault)
    (read : Operation) (hloads : read.Loads) (earlier now : Timestamp) (answer : Answer)
    (hanswer : (((fresh settings (.ofKey key) nonces).after calls).step earlier read).1
      = .ok answer) :
    ∀ session ∈ answer.loaded,
      (¬ session.EndsEarly →
        (((fresh settings (.ofKey key) nonces).after calls).step earlier read).2.1.SavesBack now
          session) ∧
      (session.EndsEarly →
        (((fresh settings (.ofKey key) nonces).after calls).step earlier read).2.1.RefusesEnd now
          session) := by
  intro session hsession
  have hfresh : Along (.ofKey key) (fun id x => ∀ y ∈ x, y.WrittenBy (.ofKey key))
      (fresh settings (.ofKey key) nonces) [] :=
    along_fresh settings _ nonces fun _ _ hx => absurd hx (Option.not_mem_none _)
  obtain ⟨sessions, h⟩ := Along.after [] hfresh (fun c hc => (hcalls c hc).1)
    fun c hc replies answer id x x' ht hx => ht.writtenBy hx
  have hrefusal : ((fresh settings (.ofKey key) nonces).after calls).table.refusal = none :=
    refusal_after rfl fun c hc => (hcalls c hc).2
  obtain ⟨-, x, hx, -, rfl⟩ := loaded_of_step h.sound hloads hanswer hsession
  have hwritten := h.property x.id x (h.sound.sessionOf_id hx)
  rw [step_reads hloads.reads]
  rw [← h.unchanged] at hwritten
  exact savesBack_or_refusesEnd (h.sound.withEvents []) h.opened hrefusal hx hwritten now

/-- A session with samples of 100 and 300 milliseconds. -/
def unevenSamples : Session :=
  { Session.start "a" "u" .epoch with responseTimes := [.ofMillis 100, .ofMillis 300] }

/-- What is loaded of it. -/
def evenSample : Session := { unevenSamples with responseTimes := [.ofMillis 200] }

/-- It is created. -/
def uneven : List Call := [⟨.epoch, .create unevenSamples⟩]

/-- A session is created and ends before it starts. -/
def endedEarly : List Call := [
  ⟨.epoch, .create (.start "a" "u" fiveMinutes)⟩,
  ⟨.epoch, .finish "a" .epoch⟩]

/-- What is loaded of it. -/
def earlySession : Session := { Session.start "a" "u" fiveMinutes with endTime := some .epoch }

theorem uneven_ordinary : ∀ c ∈ uneven, c.operation.IsOrdinary ∧ ¬ c.operation.IsFault := by
  intro c hc
  rw [List.mem_singleton.1 hc]
  exact ⟨trivial, id⟩

theorem endedEarly_ordinary :
    ∀ c ∈ endedEarly, c.operation.IsOrdinary ∧ ¬ c.operation.IsFault := by
  intro c hc
  simp only [endedEarly, List.mem_cons, List.not_mem_nil, or_false] at hc
  rcases hc with rfl | rfl <;> exact ⟨trivial, id⟩

theorem get_uneven :
    (((fresh .standard (.ofKey []) (.counting 0)).after uneven).step .epoch (.get "a")).1
      = .ok (.session evenSample) :=
  step_get_ok.2 ⟨by decide +kernel, by decide,
    Row.ofStored (unevenSamples.storedWith .epoch (300, 200) []),
    unevenSamples.storedWith .epoch (300, 200) [], by decide +kernel, by decide +kernel,
    congrArg Answer.session (by decide +kernel)⟩

theorem get_endedEarly :
    (((fresh .standard (.ofKey []) (.counting 0)).after endedEarly).step .epoch (.get "a")).1
      = .ok (.session earlySession) :=
  step_get_ok.2 ⟨by decide +kernel, by decide,
    Row.ofStored (earlySession.storedWith .epoch (0, 0) []),
    earlySession.storedWith .epoch (0, 0) [], by decide +kernel, by decide +kernel,
    congrArg Answer.session (by decide +kernel)⟩

theorem loaded_saves_back_uneven :
    (((fresh .standard (.ofKey []) (.counting 0)).after uneven).step .epoch
        (.get "a")).2.1.SavesBack .epoch evenSample ∧
      (((fresh .standard (.ofKey []) (.counting 0)).after endedEarly).step .epoch
        (.get "a")).2.1.RefusesEnd .epoch earlySession := by
  constructor
  · refine (loaded_saves_back .standard [] (.counting 0) uneven uneven_ordinary (.get "a") trivial
      .epoch .epoch _ get_uneven evenSample (List.mem_singleton_self _)).1 fun h' => ?_
    obtain ⟨finish, hfinish, -⟩ := h'
    cases hfinish
  · exact (loaded_saves_back .standard [] (.counting 0) endedEarly endedEarly_ordinary (.get "a")
      trivial .epoch .epoch _ get_endedEarly earlySession (List.mem_singleton_self _)).2
        ⟨.epoch, rfl, by decide⟩

/-- Without faults, saving back is refused, and a column that has nothing to do with
durations is changed. -/
theorem saving_back_not_neutral :
    (¬ ∀ (settings : Settings) (key : List UInt8) (nonces : Cipher.Nonces) (calls : List Call),
      (∀ c ∈ calls, c.operation.IsOrdinary ∧ ¬ c.operation.IsFault) →
      ∀ (id : String) (earlier now : Timestamp) (session : Session),
        (((fresh settings (.ofKey key) nonces).after calls).step earlier (.get id)).1
          = .ok (.session session) →
        ((((fresh settings (.ofKey key) nonces).after calls).step earlier (.get id)).2.1.step now
          (.update session)).1.isOk) ∧
    ¬ ∀ (settings : Settings) (key : List UInt8) (nonces : Cipher.Nonces) (calls : List Call),
      (∀ c ∈ calls, c.operation.IsOrdinary ∧ ¬ c.operation.IsFault) →
      ∀ (id : String) (earlier now : Timestamp) (session : Session),
        (((fresh settings (.ofKey key) nonces).after calls).step earlier (.get id)).1
          = .ok (.session session) →
        ((((((fresh settings (.ofKey key) nonces).after calls).step earlier (.get id)).2.1.step now
          (.update session)).2.1.table.row? id).map fun row => { row with duration := 0 })
          = (((fresh settings (.ofKey key) nonces).after calls).table.row? id).map
            fun row => { row with duration := 0 } := by
  refine ⟨fun h => ?_, fun h => ?_⟩
  · have hok := h .standard [] (.counting 0) endedEarly endedEarly_ordinary "a" .epoch .epoch
        earlySession get_endedEarly
    exact absurd hok (by decide +kernel)
  · have hsame := h .standard [] (.counting 0) uneven uneven_ordinary "a" .epoch .epoch evenSample
        get_uneven
    exact absurd hsame (by decide +kernel)

end Store

end ChatArchive
