import ChatArchive.Store.Basic
import ChatArchive.Store.MessageColumn

/-!
# Writing sessions

Creating, updating and ending sessions and adding messages. Every operation checks its arguments
first, then encrypts, then runs its transactions. An end time is set only where there is none, so
the first one that is recorded stays.
-/

namespace ChatArchive.Store

open Json Time

/-- A stored session must have an id and must not end before it starts. -/
def validate (s : StoredSession) : Except StoreError Unit :=
  if s.id.isEmpty then .error .invalidSessionId
  else
    match s.endTime with
    | some finish =>
      if finish < s.startTime then .error (.invalidSession "end time precedes start time")
      else .ok ()
    | none => .ok ()

/-- An operation on one session needs its id. -/
def requireId (id : String) : Action Unit :=
  if id.isEmpty then fail .invalidSessionId else pure ()

/-- The stored form of a session that may be written. -/
def prepare (now : Timestamp) (session : Session) : Action StoredSession := do
  let s ← getThe Store
  match session.toStored s.cipher now with
  | none => throw .overflow
  | some drawing => do
    let stored ← encrypting drawing
    ofExcept (validate stored)
    pure stored

/-- The failure of an insertion: a broken uniqueness rule means that the session exists. -/
def insertError (id : String) (e : DatabaseError) : StoreError :=
  if Text.occursIn "UNIQUE".toList e.message.toList then .duplicateSession id else e.toStoreError

/-- Inserts a row. -/
def insertion (row : Row) : Transaction Unit := fun table =>
  match table.insert row with
  | .ok table => .ok ((), table)
  | .error e => .error (insertError row.id e)

/-- Stores a new session. -/
def create (now : Timestamp) (session : Session) : Action Unit := do
  let stored ← prepare now session
  retrying "create_session" (·.defaultSecs) (insertion (Row.ofStored stored))
  modify fun s => { s with counters := s.counters.create stored.endTime.isNone }

/-- The columns that an update sets. The id, the messages and the end time are not among them. -/
def updatedColumns : List Column := [
  .userId, .name, .modelId, .startTime, .duration, .adminAssisted, .assistingAdminId,
  .assistingAdminName, .helpRequested, .totalTokens, .maxResponseMs, .avgResponseMs, .lastActivity]

/-- The later of two texts of the last activity. -/
def laterActivity (old new : Option String) : Option String :=
  match new with
  | some n => if old.getD "" < n then some n else old
  | none => old

/-- A row updated from another: the duration of an ended session stays, and the last activity only
moves forward. -/
def updatedRow (new old : Row) : Row :=
  { new with
    id := old.id
    messages := old.messages
    endTime := old.endTime
    duration := if old.endTime.isNone then new.duration else old.duration
    lastActivity := laterActivity old.lastActivity new.lastActivity }

/-- Whether a row is the session's and has no end time yet. -/
def isOpen (id : String) (row : Row) : Bool := row.id = id && row.endTime.isNone

/-- Sets the end time of a session that has none, and counts the rows that were changed. -/
def setEnd (table : Table) (id finish : String) : Except DatabaseError (Nat × Table) :=
  table.update [.endTime] (isOpen id) fun row => .ok { row with endTime := some finish }

/-- Updates a session, and tells whether that ended it. -/
def updating (new : Row) : Transaction Bool := fun table =>
  match table.update updatedColumns (·.id = new.id) fun old => .ok (updatedRow new old) with
  | .error e => .error e.toStoreError
  | .ok (0, _) => .error .notFound
  | .ok (_, table) =>
    match new.endTime with
    | none => .ok (false, table)
    | some finish =>
      match setEnd table new.id finish with
      | .error e => .error e.toStoreError
      | .ok (n, table) => .ok (0 < n, table)

/-- Counts a session as ended, if it was ended just now. -/
def countEnded (ended : Bool) : Action Unit :=
  if ended then modify fun s => { s with counters := s.counters.finish } else pure ()

/-- Updates a stored session, all but its messages. -/
def update (now : Timestamp) (session : Session) : Action Unit := do
  let stored ← prepare now session
  let ended ← retrying "update_session" (·.defaultSecs) (updating (Row.ofStored stored))
  countEnded ended

/-- Adds the JSON of a message to a row. -/
def appendedRow (message : Json) (lastActivity : String) (row : Row) :
    Except DatabaseError Row := do
  let tree ← MessageColumn.tree row.messages
  pure { row with
    messages := (MessageColumn.append message tree).compact
    lastActivity := some lastActivity }

/-- Adds a message to a session, and counts the sessions that it was added to. -/
def appending (id : String) (message : StoredMessage) (lastActivity : String) : Transaction Nat :=
  fun table =>
    let change := appendedRow (StoredMessage.encoding.write message) lastActivity
    match table.update [.messages, .lastActivity] (·.id = id) change with
    | .ok result => .ok result
    | .error e => .error e.toStoreError

/-- Adds a message to a stored session. -/
def addMessage (now : Timestamp) (id : String) (message : Message) : Action Unit := do
  requireId id
  let s ← getThe Store
  let stored ← encrypting (message.toStored s.cipher)
  let touched ← retrying "add_message" (·.messageAddSecs)
    (appending id stored now.toColumn)
  if touched = 0 then fail .notFound else pure ()

/-- What ending a session finds: its start, the end that is recorded now, and whether it was
recorded just now. -/
structure Ending where
  startTime : String
  endTime : String
  recorded : Bool
deriving DecidableEq

/-- Ends a session, or finds that it has ended. -/
def ending (id finish : String) : Transaction Ending := fun table =>
  match table.rows.find? (isOpen id) with
  | some row =>
    match setEnd table id finish with
    | .ok (_, table) => .ok (⟨row.startTime, finish, true⟩, table)
    | .error e => .error e.toStoreError
  | none =>
    match table.row? id with
    | some row => .ok (⟨row.startTime, row.endTime.getD finish, false⟩, table)
    | none => .error .notFound

/-- Sets the duration of a session. -/
def settingDuration (id : String) (duration : Int64) : Transaction Unit := fun table =>
  match table.update [.duration] (·.id = id) fun row => .ok { row with duration := duration } with
  | .ok (_, table) => .ok ((), table)
  | .error e => .error e.toStoreError

/-- The event that tells of a duration that was not recorded. -/
def durationEvent (id : String) (duration : Int64) (e : StoreError) : Event where
  level := .warning
  message := "failed to record session duration"
  values := [
    ("session_id", .text id),
    ("duration", .number duration.toInt),
    ("error", .text e.message)]

/-- Sets the duration of a session as far as that is possible: a failure is reported and passed
over. The operation that ends the session goes on, with what is left until its deadline. -/
def recordDuration (id : String) (duration : Int64) (p : Progress) : Action Unit :=
  tryCatch
    (do
      let _ ← retryingFrom "end_session_duration" p (settingDuration id duration)
      pure ())
    fun
    | .failed e => report (durationEvent id duration e)
    | .overflow => throw .overflow

/-- Ends a stored session. A session that has ended keeps its end time. -/
def finish (id : String) (time : Timestamp) : Action Unit := do
  requireId id
  let s ← getThe Store
  let (found, p) ← retryingFrom "end_session" (.start s.settings.timeouts.sessionEndSecs)
    (ending id time.toColumn)
  countEnded found.recorded
  let startTime ← ofExcept (Row.readTime found.startTime)
  let endTime ← ofExcept (Row.readTime found.endTime)
  recordDuration id (durationSecs startTime endTime) p

/-- The event that tells of the indexes. -/
def indexEvent : Event where
  level := .info
  message := "session indexes ensured"
  values := [("indexes", .text
    ("[" ++ ", ".intercalate (Table.standardIndexes.map fun i => "\"" ++ i ++ "\"") ++ "]"))]

/-- Makes sure that the table has its indexes. -/
def ensureIndexes : Action Unit := do
  retrying "ensure_indexes" (·.indexSecs) fun table => .ok ((), table.ensureIndexes)
  report indexEvent

end ChatArchive.Store
