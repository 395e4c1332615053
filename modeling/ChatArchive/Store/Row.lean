import ChatArchive.Session.Encoding
import ChatArchive.Session.Storing
import ChatArchive.Store.Error

/-!
# Rows

A stored session is one row of typed columns. Instants are kept as texts of nine fraction digits and
the messages as the text of a JSON array, so a column may hold a text that nothing can be read from;
reading a row says so.
-/

namespace ChatArchive

open Json Text Time

/-- A failure that the database reports, with its code. -/
structure DatabaseError where
  code : Nat
  message : String
deriving DecidableEq, Repr

/-- The store error that a database failure becomes. -/
def DatabaseError.toStoreError (e : DatabaseError) : StoreError :=
  .store ("error returned from database: (code: " ++ toString e.code ++ ") " ++ e.message)

/-- Messages are asked about or added to, but their column does not hold JSON. -/
def DatabaseError.malformedJson : DatabaseError := ⟨1, "malformed JSON"⟩

/-- A sum leaves the 64-bit integers. -/
def DatabaseError.integerOverflow : DatabaseError := ⟨1, "integer overflow"⟩

/-- A row with the same id exists. -/
def DatabaseError.duplicateId : DatabaseError := ⟨1555, "UNIQUE constraint failed: sessions._id"⟩

/-- The columns of a row. -/
inductive Column
  | id
  | userId
  | name
  | modelId
  | messages
  | startTime
  | endTime
  | duration
  | adminAssisted
  | assistingAdminId
  | assistingAdminName
  | helpRequested
  | totalTokens
  | maxResponseMs
  | avgResponseMs
  | lastActivity
deriving DecidableEq, Repr

namespace Column

/-- The name of a column. -/
def label : Column → String
  | .id => "_id"
  | .userId => "uid"
  | .name => "nm"
  | .modelId => "modelId"
  | .messages => "msgs"
  | .startTime => "ts"
  | .endTime => "endTs"
  | .duration => "dur"
  | .adminAssisted => "adminAssisted"
  | .assistingAdminId => "assistingAdminId"
  | .assistingAdminName => "assistingAdminName"
  | .helpRequested => "helpRequested"
  | .totalTokens => "totalTokens"
  | .maxResponseMs => "maxRespTime"
  | .avgResponseMs => "avgRespTime"
  | .lastActivity => "lastActivity"

/-- All columns, in the order of a row. -/
def all : List Column := [
  .id, .userId, .name, .modelId, .messages, .startTime, .endTime, .duration, .adminAssisted,
  .assistingAdminId, .assistingAdminName, .helpRequested, .totalTokens, .maxResponseMs,
  .avgResponseMs, .lastActivity]

/-- The column of this name. -/
def ofName? (name : String) : Option Column := all.find? (·.label = name)

end Column

/-- A stored session. -/
structure Row where
  id : String
  userId : String
  name : String
  modelId : String
  messages : String
  startTime : String
  endTime : Option String
  duration : Int64
  adminAssisted : Int64
  assistingAdminId : Option String
  assistingAdminName : Option String
  helpRequested : Int64
  totalTokens : Int64
  maxResponseMs : Int64
  avgResponseMs : Int64
  lastActivity : Option String
deriving DecidableEq

/-- What a column holds. -/
inductive ColumnValue
  | null
  | integer (value : Int64)
  | text (value : String)
deriving DecidableEq

/-- A truth value as a column holds it. -/
def flag (b : Bool) : Int64 := if b then 1 else 0

namespace ColumnValue

/-- A text, or null where there is none. -/
def ofOption : Option String → ColumnValue
  | none => .null
  | some s => .text s

/-- The text that a column of texts takes from a value: integers are written out. -/
def toText? : ColumnValue → Option String
  | .null => none
  | .integer i => some (String.ofList (signedDigits i.toInt))
  | .text s => some s

/-- The integer that a column of integers takes from a value. -/
def toInteger? : ColumnValue → Option Int64
  | .integer i => some i
  | _ => none

end ColumnValue

namespace Row

/-- What the columns of a row hold. -/
def get (r : Row) : Column → ColumnValue
  | .id => .text r.id
  | .userId => .text r.userId
  | .name => .text r.name
  | .modelId => .text r.modelId
  | .messages => .text r.messages
  | .startTime => .text r.startTime
  | .endTime => .ofOption r.endTime
  | .duration => .integer r.duration
  | .adminAssisted => .integer r.adminAssisted
  | .assistingAdminId => .ofOption r.assistingAdminId
  | .assistingAdminName => .ofOption r.assistingAdminName
  | .helpRequested => .integer r.helpRequested
  | .totalTokens => .integer r.totalTokens
  | .maxResponseMs => .integer r.maxResponseMs
  | .avgResponseMs => .integer r.avgResponseMs
  | .lastActivity => .ofOption r.lastActivity

/-- The row with another value in a column, if the column takes it. -/
def set? (r : Row) (column : Column) (v : ColumnValue) : Option Row :=
  match column with
  | .id => v.toText?.map fun s => { r with id := s }
  | .userId => v.toText?.map fun s => { r with userId := s }
  | .name => v.toText?.map fun s => { r with name := s }
  | .modelId => v.toText?.map fun s => { r with modelId := s }
  | .messages => v.toText?.map fun s => { r with messages := s }
  | .startTime => v.toText?.map fun s => { r with startTime := s }
  | .endTime => some { r with endTime := v.toText? }
  | .duration => v.toInteger?.map fun i => { r with duration := i }
  | .adminAssisted => v.toInteger?.map fun i => { r with adminAssisted := i }
  | .assistingAdminId => some { r with assistingAdminId := v.toText? }
  | .assistingAdminName => some { r with assistingAdminName := v.toText? }
  | .helpRequested => v.toInteger?.map fun i => { r with helpRequested := i }
  | .totalTokens => v.toInteger?.map fun i => { r with totalTokens := i }
  | .maxResponseMs => v.toInteger?.map fun i => { r with maxResponseMs := i }
  | .avgResponseMs => v.toInteger?.map fun i => { r with avgResponseMs := i }
  | .lastActivity => some { r with lastActivity := v.toText? }

/-- Token counts above 2^63 are kept as negative numbers. -/
def storedTokens (n : UInt64) : Int64 := n.toInt64

/-- Negative token counts read as none. -/
def loadedTokens (i : Int64) : UInt64 := UInt64.ofNat i.toInt.toNat

/-- The row of a stored session. -/
def ofStored (s : StoredSession) : Row where
  id := s.id
  userId := s.userId
  name := s.name
  modelId := s.modelId
  messages := StoredMessage.encoding.list.encode s.messages
  startTime := s.startTime.toColumn
  endTime := s.endTime.map Timestamp.toColumn
  duration := s.duration
  adminAssisted := flag s.adminAssisted
  assistingAdminId := s.assistingAdminId
  assistingAdminName := s.assistingAdminName
  helpRequested := flag s.helpRequested
  totalTokens := storedTokens s.totalTokens
  maxResponseMs := s.maxResponseMs
  avgResponseMs := s.avgResponseMs
  lastActivity := s.lastActivity.map Timestamp.toColumn

/-- The instant of a column. -/
def readTime (text : String) : Except StoreError Timestamp :=
  match Timestamp.parseStrict text.toList with
  | .ok t => .ok t
  | .error fault => .error (.store ("invalid datetime '" ++ text ++ "': " ++ fault.message))

/-- The instant of a column that may be empty. -/
def readTime? : Option String → Except StoreError (Option Timestamp)
  | none => .ok none
  | some text => (readTime text).map some

/-- The messages of a row. -/
def readMessages (text : String) : Except StoreError (List StoredMessage) :=
  match StoredMessage.encoding.list.decode text with
  | .ok messages => .ok messages
  | .error fault => .error (.store ("invalid messages JSON: " ++ fault.message))

/-- The stored session of a row. -/
def toStored (r : Row) : Except StoreError StoredSession := do
  let messages ← readMessages r.messages
  let startTime ← readTime r.startTime
  let endTime ← readTime? r.endTime
  let lastActivity ← readTime? r.lastActivity
  pure {
    id := r.id
    userId := r.userId
    name := r.name
    modelId := r.modelId
    messages := messages
    startTime := startTime
    endTime := endTime
    duration := r.duration
    adminAssisted := r.adminAssisted != 0
    assistingAdminId := r.assistingAdminId
    assistingAdminName := r.assistingAdminName
    helpRequested := r.helpRequested != 0
    totalTokens := loadedTokens r.totalTokens
    maxResponseMs := r.maxResponseMs
    avgResponseMs := r.avgResponseMs
    lastActivity := lastActivity }

end Row

end ChatArchive
