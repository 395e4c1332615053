import ChatArchive.Store.Figures
import ChatArchive.Store.Writing

/-!
# Operations of the store

Everything that can be done to a store, as data, so that a run of a store is a list of operations
with the times at which they happen.
-/

namespace ChatArchive

open Time

/-- Something done to a store. The last six act on the store or its table from outside. -/
inductive Operation
  | create (session : Session)
  | update (session : Session)
  | get (id : String)
  | addMessage (id : String) (message : Message)
  | finish (id : String) (time : Timestamp)
  | listUser (userId : String) (limit : UInt32)
  | listAll (limit : UInt32)
  | list (query : ListQuery)
  | active
  | ensureIndexes
  | metrics (start finish : Timestamp)
  | tokens (start finish : Timestamp)
  | rekey (key : List UInt8)
  | shutdown
  | refuse (refusal : Refusal)
  | relent
  | schedule (refusals : List (Option Refusal))
  | overwrite (id : String) (column : Column) (value : ColumnValue)

/-- The answer to an operation that succeeds. -/
inductive Answer
  | nothing
  | session (value : Session)
  | sessions (value : List Session)
  | summaries (value : List Summary)
  | report (value : MetricsReport)
  | count (value : Nat)

namespace Store

/-- Overwrites a column of a row directly. -/
def overwrite (id : String) (column : Column) (v : ColumnValue) : Action Nat := do
  let s ← getThe Store
  match s.table.overwrite id column v with
  | .ok (n, table) => do
    set { s with table := table }
    pure n
  | .error e => fail e.toStoreError

/-- What an operation does. Time is taken as it is when the operation begins. -/
def run (now : Timestamp) : Operation → Action Answer
  | .create session => do create now session; pure .nothing
  | .update session => do update now session; pure .nothing
  | .get id => .session <$> get id
  | .addMessage id message => do addMessage now id message; pure .nothing
  | .finish id time => do finish id time; pure .nothing
  | .listUser userId limit => .summaries <$> listUser userId limit
  | .listAll limit => .summaries <$> listAll limit
  | .list query => .summaries <$> list query
  | .active => .sessions <$> active
  | .ensureIndexes => do ensureIndexes; pure .nothing
  | .metrics start finish => .report <$> metrics start finish
  | .tokens start finish => do
    let total ← tokens start finish
    pure (.count total.toNat)
  | .rekey key => do
    modify fun s => { s with cipher := .ofKey key }
    pure .nothing
  | .shutdown => do
    modify fun s => { s with closed := true }
    pure .nothing
  | .refuse refusal => do
    modify fun s => { s with table := s.table.refusing (some refusal) }
    pure .nothing
  | .relent => do
    modify fun s => { s with table := s.table.refusing none }
    pure .nothing
  | .schedule refusals => do
    modify fun s => { s with table := { s.table with scheduled := refusals } }
    pure .nothing
  | .overwrite id column v => .count <$> overwrite id column v

/-- One operation at a time: its answer, the store after it, and the events reported meanwhile. -/
def step (s : Store) (now : Timestamp) (operation : Operation) :
    Except Abort Answer × Store × List Event :=
  let (answer, s) := { s with events := [] }.perform (run now operation)
  (answer, { s with events := [] }, s.events)

end Store

end ChatArchive
