import ChatArchive.Number.Binary64

/-!
# TOML values

A document is a table. While it is read, a table remembers how it came about, because that decides
whether more may be added to it: a table with a header of its own can be declared once, a table that
a dotted key made takes further dotted keys, and a table that was only implied by the header of
another may still get a header.
-/

namespace ChatArchive

open Number

/-- A value of a settings file. Of dates and times only that they are there is kept. -/
inductive Toml
  | bool (value : Bool)
  | integer (value : Int)
  | float (value : Binary64)
  | string (value : String)
  | instant
  | array (items : List Toml)
  | table (entries : List (String × Toml))
deriving Inhabited

namespace Toml

/-- How a table came about. -/
inductive Origin
  | declared
  | implied
  | dotted
deriving DecidableEq, Repr

/-- What a key stands for while the document is read: a value that is complete, a table that may
grow, or an array of tables, of which the last may grow. -/
inductive Draft
  | value (value : Toml)
  | table (origin : Origin) (entries : List (String × Draft))
  | tables (earlier : List Toml) (last : List (String × Draft))
deriving Inhabited

/-- A table that may grow. -/
abbrev Entries := List (String × Draft)

mutual

/-- The value of a draft. -/
def Draft.finish : Draft → Toml
  | .value v => v
  | .table _ entries => .table (finishAll entries)
  | .tables earlier last => .array (earlier ++ [.table (finishAll last)])

/-- The values of a table. -/
def finishAll : Entries → List (String × Toml)
  | [] => []
  | (key, d) :: rest => (key, d.finish) :: finishAll rest

end

/-- The entries with a key set. -/
def Entries.put (key : String) (d : Draft) : Entries → Entries
  | [] => [(key, d)]
  | (k, old) :: rest => if k = key then (k, d) :: rest else (k, old) :: Entries.put key d rest

/-- Changes the table at a path, making the tables that are missing. A dotted path may not pass
through a table with a header, and no path passes through a value. -/
def Entries.within (dotted : Bool) (origin : Origin) (entries : Entries)
    (change : Origin → Entries → Option Entries) : (path : List String) → Option Entries
  | [] => change origin entries
  | key :: rest =>
    match entries.lookup key with
    | none => do
      let origin : Origin := if dotted then .dotted else .implied
      let inner ← Entries.within dotted origin [] change rest
      some (entries.put key (.table origin inner))
    | some (.value _) => none
    | some (.table origin inner) =>
      if dotted && origin = .declared then none
      else do
        let inner ← Entries.within dotted origin inner change rest
        some (entries.put key (.table origin inner))
    | some (.tables earlier last) => do
      let last ← Entries.within dotted .declared last change rest
      some (entries.put key (.tables earlier last))

/-- Adds a key that is not there yet. -/
def Entries.add (key : String) (d : Draft) (entries : Entries) : Option Entries :=
  match entries.lookup key with
  | none => some (entries.put key d)
  | some _ => none

/-- Sets a dotted key of a table. A table that a dotted key adds to must have come from dotted keys.
-/
def Entries.setValue (path : List String) (v : Toml) (origin : Origin) (entries : Entries) :
    Option Entries :=
  match path.getLast? with
  | none => none
  | some key =>
    let change (target : Origin) (inner : Entries) : Option Entries :=
      if path.length = 1 || target = .dotted then inner.add key (.value v) else none
    entries.within true origin change path.dropLast

/-- Declares the table of a header: it must be new, or only implied so far. -/
def Entries.declare (path : List String) (entries : Entries) : Option Entries :=
  match path.getLast? with
  | none => none
  | some key =>
    let change (_ : Origin) (inner : Entries) : Option Entries :=
      match inner.lookup key with
      | none => some (inner.put key (.table .declared []))
      | some (.table .implied old) => some (inner.put key (.table .declared old))
      | some _ => none
    entries.within false .declared change path.dropLast

/-- Adds an empty table to the array of tables of a header, which may be new. -/
def Entries.declareNext (path : List String) (entries : Entries) : Option Entries :=
  match path.getLast? with
  | none => none
  | some key =>
    let change (_ : Origin) (inner : Entries) : Option Entries :=
      match inner.lookup key with
      | none => some (inner.put key (.tables [] []))
      | some (.tables earlier last) =>
        some (inner.put key (.tables (earlier ++ [.table (finishAll last)]) []))
      | some _ => none
    entries.within false .declared change path.dropLast

end Toml

end ChatArchive
