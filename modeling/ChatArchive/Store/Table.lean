import ChatArchive.Store.Row

/-!
# The table of sessions

Rows in the order in which they were inserted. A statement either changes the table or fails and
leaves it as it was, which is why statements are functions from tables to tables that may fail. For
rehearsing failures a table can be told to refuse statements of a kind: the refusal comes with the
first row that a statement would touch. While an operation pauses, another refusal may take the
place of the one in force, or none.
-/

namespace ChatArchive

/-- A statement that changes the table, by the columns that it sets. -/
inductive Statement
  | insert
  | update (columns : List Column)
deriving DecidableEq

/-- The statements that a table refuses. -/
inductive RefusalScope
  | inserts
  | updates
  | updatesOf (column : String)
deriving DecidableEq

/-- A standing refusal. -/
structure Refusal where
  scope : RefusalScope
  message : String
deriving DecidableEq

namespace RefusalScope

/-- The scope written as `INSERT`, `UPDATE` or `UPDATE OF` and a column. -/
def ofText (text : String) : RefusalScope :=
  if text = "INSERT" then .inserts
  else if text = "UPDATE" then .updates
  else .updatesOf (String.ofList (text.toList.drop 10))

/-- Whether a statement is refused. -/
def covers : RefusalScope → Statement → Bool
  | .inserts, .insert => true
  | .updates, .update _ => true
  | .updatesOf column, .update columns => columns.any (·.label = column)
  | _, _ => false

end RefusalScope

/-- A table of sessions with its indexes, a refusal, if one is in force, and the refusals that are
in force instead after the first pause of an operation, the second and so on. -/
structure Table where
  rows : List Row
  indexes : List String
  refusal : Option Refusal
  scheduled : List (Option Refusal)
deriving DecidableEq

namespace Table

/-- A table without rows. -/
def empty : Table := ⟨[], [], none, []⟩

/-- The table with another refusal in force. -/
def refusing (t : Table) (refusal : Option Refusal) : Table := { t with refusal := refusal }

/-- The refusal in force after some pauses of an operation; the last one stays. -/
def refusalAfter (t : Table) (pauses : Nat) : Option Refusal :=
  (t.refusal :: t.scheduled).getD (min pauses t.scheduled.length) none

/-- The table as an attempt after some pauses of an operation meets it. -/
def paused (t : Table) (pauses : Nat) : Table := t.refusing (t.refusalAfter pauses)

/-- Lets a statement touch a row, unless it is refused. -/
def permit (t : Table) (statement : Statement) : Except DatabaseError Unit :=
  match t.refusal with
  | some refusal =>
    if refusal.scope.covers statement then .error ⟨1811, refusal.message⟩ else .ok ()
  | none => .ok ()

/-- The row with this id. -/
def row? (t : Table) (id : String) : Option Row := t.rows.find? (·.id = id)

/-- Adds a row with a new id. -/
def insert (t : Table) (row : Row) : Except DatabaseError Table := do
  t.permit .insert
  if t.rows.any (·.id = row.id) then throw .duplicateId
  pure { t with rows := t.rows ++ [row] }

/-- A row that an update has reached: changed if it is selected. -/
def reach (t : Table) (columns : List Column) (select : Row → Bool)
    (change : Row → Except DatabaseError Row) (row : Row) : Except DatabaseError Row :=
  if select row then do
    let changed ← change row
    t.permit (.update columns)
    pure changed
  else pure row

/-- Changes the selected rows, and counts them. -/
def update (t : Table) (columns : List Column) (select : Row → Bool)
    (change : Row → Except DatabaseError Row) : Except DatabaseError (Nat × Table) := do
  let rows ← t.rows.mapM (t.reach columns select change)
  pure (t.rows.countP select, { t with rows := rows })

/-- The index over start times. It has the latest start first, and rows of one start as they were
inserted. -/
def startIndex : String := "idx_start_time"

/-- The indexes that the table may have, with the columns that they cover by name. -/
def standardIndexes : List String :=
  ["idx_user_id", startIndex, "idx_admin_assisted", "idx_user_start_time"]

/-- Whether start times are indexed. -/
def hasStartIndex (t : Table) : Bool := t.indexes.contains startIndex

/-- Adds the indexes that are missing. -/
def ensureIndexes (t : Table) : Table :=
  { t with indexes := t.indexes ++ standardIndexes.filter fun i => !t.indexes.contains i }

/-- The row with another value in a column. -/
def overwritten (column : Column) (v : ColumnValue) (row : Row) : Except DatabaseError Row :=
  match row.set? column v with
  | some row => .ok row
  | none => .error ⟨1299, "NOT NULL constraint failed: sessions." ++ column.label⟩

/-- Overwrites a column of a row directly and counts the rows that were changed. Nothing but the
column itself can refuse it. -/
def overwrite (t : Table) (id : String) (column : Column) (v : ColumnValue) :
    Except DatabaseError (Nat × Table) := do
  let (n, changed) ← (t.refusing none).update [column] (·.id = id) (overwritten column v)
  pure (n, changed.refusing t.refusal)

end Table

end ChatArchive
