import ChatArchive.Store.Basic
import ChatArchive.Store.MessageColumn

/-!
# Reading sessions

Loading one session or the active ones, and listing. A listing filters, sorts and cuts rows and only
then looks into the messages of the rows that are left; the rows of a page never depend on rows
with the same key, because ids break ties.
-/

namespace ChatArchive.Store

open Time

/-- The event that tells of content that could not be decrypted. -/
def fallbackEvent (id : String) (fallbacks : Nat) : Event where
  level := .warning
  message := "message content failed to decrypt, returning stored value"
  values := [("session_id", .text id), ("fallbacks", .number fallbacks)]

/-- The events that loading a stored session reports. -/
def revealEvents (cipher : ContentCipher) (stored : StoredSession) : List Event :=
  match stored.fallbacks cipher with
  | 0 => []
  | n + 1 => [fallbackEvent stored.id (n + 1)]

/-- The session of a row. -/
def load (row : Row) : Action Session := do
  let stored ← ofExcept row.toStored
  let s ← getThe Store
  (revealEvents s.cipher stored).forM report
  pure (stored.toSession s.cipher)

/-- Loads a session. -/
def get (id : String) : Action Session := do
  if id.isEmpty then fail .invalidSessionId
  let row? ← asking "get_session" (·.defaultSecs) fun table => .ok (table.row? id)
  match row? with
  | some row => load row
  | none => fail .notFound

/-- Loads the active sessions, the latest start first, as many as a page may hold. -/
def active : Action (List Session) := do
  let s ← getThe Store
  let most := s.settings.listing.maxLimit.toNat
  let rows ← asking "load_active_sessions" (·.defaultSecs) fun table =>
    .ok (((table.rows.filter (·.endTime.isNone)).mergeSort
      fun a b => b.startTime ≤ a.startTime).take most)
  rows.mapM load

/-- A range of times must not end before it starts. -/
def validateRange (start finish : Timestamp) : Except StoreError Unit :=
  if finish < start then .error .invalidTimeRange else .ok ()

/-- Whether a row passes the filters of a query. -/
def selects (q : ListQuery) (row : Row) : Bool :=
  q.userId.all (· = row.userId)
    && q.startFrom.all (fun t => t.toColumn ≤ row.startTime)
    && q.startTo.all (fun t => row.startTime ≤ t.toColumn)
    && q.adminAssisted.all (fun b => row.adminAssisted = flag b)
    && q.active.all (· = row.endTime.isNone)

/-- What a row is sorted by. -/
inductive SortValue
  | text (value : Option String)
  | integer (value : Int)
deriving DecidableEq

/-- The value of a row under a sort key; the message column is looked into only if the key asks for
it. -/
def sortValue (key : SortKey) (row : Row) : Except DatabaseError SortValue :=
  match key with
  | .startTime => .ok (.text (some row.startTime))
  | .endTime => .ok (.text row.endTime)
  | .userId => .ok (.text (some row.userId))
  | .totalTokens => .ok (.integer row.totalTokens.toInt)
  | .messageCount => do
    let tree ← MessageColumn.tree row.messages
    pure (.integer (MessageColumn.count tree))

/-- The order of sort values: missing texts come before all others. -/
def SortValue.compare : SortValue → SortValue → Ordering
  | .text none, .text none => .eq
  | .text none, .text (some _) => .lt
  | .text (some _), .text none => .gt
  | .text (some a), .text (some b) => Ord.compare a b
  | .integer a, .integer b => Ord.compare a b
  | .text _, .integer _ => .gt
  | .integer _, .text _ => .lt

/-- Whether a row comes before another in a listing. -/
def precedes (direction : Direction) (a b : SortValue × Row) : Bool :=
  let order := match direction with
    | .ascending => a.1.compare b.1
    | .descending => b.1.compare a.1
  match order with
  | .lt => true
  | .gt => false
  | .eq => a.2.id ≤ b.2.id

/-- A row with what a listing takes from its messages. -/
structure ListedRow where
  row : Row
  messageCount : Nat
  lastMessageTime : String
deriving DecidableEq

/-- Looks into the messages of a row. A session whose last message has no time was active last when
it started. -/
def listedRow (row : Row) : Except DatabaseError ListedRow := do
  let tree ← MessageColumn.tree row.messages
  pure ⟨row, MessageColumn.count tree, (MessageColumn.lastTime? tree).getD row.startTime⟩

/-- The page of a query. -/
def page (q : ListQuery) (size : Nat) (table : Table) : Except DatabaseError (List ListedRow) := do
  let keyed ← (table.rows.filter (selects q)).mapM fun row => do
    let v ← sortValue q.sortKey row
    pure (v, row)
  let sorted := keyed.mergeSort (precedes q.direction)
  ((sorted.drop q.offset.toNat).take size).mapM fun (_, row) => listedRow row

/-- The summary of a listed row. -/
def summary (listed : ListedRow) : Except StoreError Summary := do
  let lastMessageTime ← Row.readTime listed.lastMessageTime
  let startTime ← Row.readTime listed.row.startTime
  let endTime ← Row.readTime? listed.row.endTime
  pure {
    id := listed.row.id
    userId := listed.row.userId
    name := listed.row.name
    lastMessageTime := lastMessageTime
    messageCount := UInt32.ofNat listed.messageCount
    adminAssisted := listed.row.adminAssisted != 0
    startTime := startTime
    endTime := endTime
    totalTokens := Row.loadedTokens listed.row.totalTokens
    maxResponseMs := listed.row.maxResponseMs
    avgResponseMs := listed.row.avgResponseMs }

/-- The page of a query as summaries. -/
def listing (operation : String) (timeout : TimeoutSettings → UInt64) (q : ListQuery) :
    Action (List Summary) := do
  match q.startFrom, q.startTo with
  | some start, some finish => ofExcept (validateRange start finish)
  | _, _ => pure ()
  let s ← getThe Store
  let size := q.pageSize s.settings.listing.defaultLimit s.settings.listing.maxLimit
  let rows ← asking operation timeout (page q size.toNat)
  rows.mapM fun row => ofExcept (summary row)

/-- Lists sessions. -/
def list (q : ListQuery) : Action (List Summary) := listing "list_sessions" (·.metricsSecs) q

/-- Lists all sessions, the latest start first. -/
def listAll (limit : UInt32) : Action (List Summary) :=
  listing "list_all_sessions" (·.defaultSecs) { ListQuery.all with limit := limit }

/-- Lists the sessions of a user, the latest start first. -/
def listUser (userId : String) (limit : UInt32) : Action (List Summary) := do
  if userId.isEmpty then fail .invalidUserId
  listing "list_user_sessions" (·.defaultSecs)
    { ListQuery.all with limit := limit, userId := some userId }

end ChatArchive.Store
