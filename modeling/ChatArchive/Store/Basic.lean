import ChatArchive.Config.Settings
import ChatArchive.Retry.Basic
import ChatArchive.Retry.Transient
import ChatArchive.Store.Table

/-!
# The store

A store is a table with the settings, the cipher and the nonces it works with. It counts the
sessions that were created and ended, and reports events. Statements run inside the retry loop; a
store that was shut down starts no statement any more. Every operation has a deadline. Statements
are taken to need no time, so it can only pass while the operation pauses between two attempts.
-/

namespace ChatArchive

/-- Sessions created and ended so far, and how many more were created active than ended since. -/
structure Counters where
  created : Nat
  ended : Nat
  active : Int
deriving DecidableEq

namespace Counters

/-- Nothing has been counted. -/
def zero : Counters := ⟨0, 0, 0⟩

/-- Counts a session that was created. -/
def create (c : Counters) (active : Bool) : Counters :=
  { c with created := c.created + 1, active := if active then c.active + 1 else c.active }

/-- Counts a session that was ended. -/
def finish (c : Counters) : Counters := { c with ended := c.ended + 1, active := c.active - 1 }

end Counters

/-- A store. -/
structure Store where
  settings : Settings
  cipher : ContentCipher
  nonces : Cipher.Nonces
  table : Table
  counters : Counters
  closed : Bool
  events : List Event

/-- Why an operation of the store has no answer: it failed, or a length of time in it was too long
for the program to go on. -/
inductive Abort
  | failed (error : StoreError)
  | overflow
deriving DecidableEq

/-- An operation of the store. What it has done to the store before it fails stays done. -/
abbrev Action := ExceptT Abort (StateM Store)

namespace Store

/-- A store with an empty table. -/
def fresh (settings : Settings) (cipher : ContentCipher) (nonces : Cipher.Nonces) : Store where
  settings := settings
  cipher := cipher
  nonces := nonces
  table := .empty
  counters := .zero
  closed := false
  events := []

/-- A failure is worth another attempt if it is the database's and passes by itself. -/
def isTransient : StoreError → Bool
  | .store message => Retry.isTransient message
  | _ => false

/-- The store error that a failed retry loop becomes. -/
def ofFailure : Retry.Failure StoreError → StoreError
  | .permanent e => e
  | .exhausted attempts last => .retryExhausted attempts last.message
  | .cancelled operation _ reason => .cancelled operation reason

/-- Fails with a store error. -/
def fail {α : Type} (e : StoreError) : Action α := throw (.failed e)

/-- Goes on with a value, or fails. -/
def ofExcept {α : Type} : Except StoreError α → Action α
  | .ok a => pure a
  | .error e => fail e

/-- Reports an event. -/
def report (e : Event) : Action Unit := modify fun s => { s with events := s.events ++ [e] }

/-- A transaction on the table: it changes the table or fails and leaves it as it was. -/
abbrev Transaction (α : Type) := Table → Except StoreError (α × Table)

/-- The transaction as it is attempted after some pauses of an operation. The refusal that it meets
then is not what it leaves behind. -/
def Transaction.after {α : Type} (transaction : Transaction α) (pauses : Nat) : Transaction α :=
  fun table =>
    match transaction (table.paused pauses) with
    | .ok (a, changed) => .ok (a, changed.refusing table.refusal)
    | .error e => .error e

/-- How far an operation has come: how many milliseconds are left until its deadline, and how often
it has paused. -/
structure Progress where
  left : Nat
  pauses : Nat
deriving DecidableEq

/-- An operation that begins, with this many seconds until its deadline. -/
def Progress.start (secs : UInt64) : Progress := ⟨secs.toNat * 1000, 0⟩

/-- An operation after another pause, unless its deadline comes before the pause ends or with it. -/
def Progress.pause? (p : Progress) (delay : Time.Span) : Option Progress :=
  if p.left ≤ Retry.timerMillis delay then none
  else some ⟨p.left - Retry.timerMillis delay, p.pauses + 1⟩

/-- A store, with the operation under way, as the surroundings of a retried transaction. -/
def surroundings {α : Type} (transaction : Transaction α) :
    Retry.Surroundings (Store × Progress) StoreError α where
  attempt s :=
    if s.1.closed then (.error .cancelled, s)
    else
      match transaction.after s.2.pauses s.1.table with
      | .ok (a, table) => (.ok (.ok a), { s.1 with table := table }, s.2)
      | .error e => (.ok (.error e), s)
  pause delay s :=
    match s.2.pause? delay with
    | none => (some .deadlineExceeded, s)
    | some p => (none, s.1, p)
  report e s := ({ s.1 with events := s.1.events ++ [e] }, s.2)

/-- How transactions are retried. -/
def plan (settings : Settings) (operation : String) : Retry.Plan StoreError where
  policy := settings.retry
  operation := operation
  isTransient := isTransient
  text := StoreError.message

/-- Runs a transaction for an operation that has come so far, with as many attempts as it needs and
the settings and the deadline allow, and tells how far the operation has come then. -/
def retryingFrom {α : Type} (operation : String) (p : Progress) (transaction : Transaction α) :
    Action (α × Progress) := do
  let s ← getThe Store
  match Retry.run (plan s.settings operation) (surroundings transaction) (s, p) with
  | (.done a, s, p) => do
    set s
    pure (a, p)
  | (.failed failure, s, _) => do
    set s
    fail (ofFailure failure)
  | (.overflow, s, _) => do
    set s
    throw .overflow

/-- Runs the transaction of an operation that begins, with the deadline that the settings have for
it. -/
def retrying {α : Type} (operation : String) (timeout : TimeoutSettings → UInt64)
    (transaction : Transaction α) : Action α := do
  let s ← getThe Store
  let (a, _) ← retryingFrom operation (.start (timeout s.settings.timeouts)) transaction
  pure a

/-- Runs a question to the table. -/
def asking {α : Type} (operation : String) (timeout : TimeoutSettings → UInt64)
    (question : Table → Except DatabaseError α) : Action α :=
  retrying operation timeout fun table =>
    match question table with
    | .ok a => .ok (a, table)
    | .error e => .error e.toStoreError

/-- Encrypts with the cipher of the store. Nonces that were drawn stay drawn. -/
def encrypting {α : Type} (step : ContentCipher.Drawing α) : Action α := do
  let s ← getThe Store
  match step.run.run s.nonces with
  | (.ok a, nonces) => do
    set { s with nonces := nonces }
    pure a
  | (.error e, nonces) => do
    set { s with nonces := nonces }
    fail (.cipher e)

/-- Runs an action. -/
def perform {α : Type} (s : Store) (action : Action α) : Except Abort α × Store :=
  Id.run (action.run.run s)

end Store

end ChatArchive
