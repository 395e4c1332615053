import ChatArchive.Json.Tree
import ChatArchive.Store.Table

/-!
# Tables as text

A table is kept between runs as one JSON text: its indexes, and its rows with their columns by name.
-/

namespace ChatArchive

open Json

namespace ColumnValue

/-- A column value as JSON. -/
def toJson : ColumnValue → Json
  | .null => .null
  | .integer i => .ofInt i.toInt
  | .text s => .string s

/-- The column value of a JSON value. -/
def ofJson? : Json → Option ColumnValue
  | .null => some .null
  | .string s => some (.text s)
  | j => j.int?.map fun i => .integer (Int64.ofInt i)

end ColumnValue

namespace Row

/-- A row that holds nothing. -/
def blank : Row := ⟨"", "", "", "", "[]", "", none, 0, 0, none, none, 0, 0, 0, 0, none⟩

/-- A row as JSON. -/
def toJson (r : Row) : Json := .object (Column.all.map fun c => (c.label, (r.get c).toJson))

/-- The row of a JSON object. -/
def ofJson? : Json → Option Row
  | .object members => members.foldlM (fun r (name, j) => do
      let c ← Column.ofName? name
      let v ← ColumnValue.ofJson? j
      r.set? c v) blank
  | _ => none

end Row

namespace Table

/-- The text that keeps a table. -/
def toText (t : Table) : String :=
  (Json.object [("indexes", .array (t.indexes.map .string)),
    ("rows", .array (t.rows.map Row.toJson))]).compact

/-- The table that a text keeps. -/
def ofText? (text : String) : Option Table := do
  let j ← (Json.parse text).toOption
  let indexes ← j.get? "indexes"
  let rows ← j.get? "rows"
  let names ← (← indexes.items?).mapM Json.string?
  let rows ← (← rows.items?).mapM Row.ofJson?
  some ⟨rows, names, none, []⟩

end Table

end ChatArchive
