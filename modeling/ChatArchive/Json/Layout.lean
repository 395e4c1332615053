import ChatArchive.Json.Reader

/-!
# Records as JSON

A `Layout` lists the fields of a record in order, each with its name, what its absence means and how
it is written and read. One value of it gives both directions: `Layout.toJson` writes an object with
the fields in order, and `Layout.read` takes an object with the fields in any order or an array of
the values in order. A field read is put into a record that starts as `blank`, so the blank value of
a field shows only where the field may be left out.
-/

namespace ChatArchive.Json

/-- What it means that a field is not there. In an array, only a defaulted field may be missing. -/
inductive Presence
  | required
  | optional
  | defaulted
deriving DecidableEq

/-- A field of a record. `write` is none for a field that is left out. -/
structure Field (α : Type) where
  name : String
  presence : Presence
  write : α → Option Json
  read : α → Reader α

/-- The fields of a record in order. A closed layout refuses fields it does not know. -/
structure Layout (α : Type) where
  blank : α
  fields : List (Field α)
  closed : Bool

namespace Layout

variable {α : Type}

/-- The record as an object. -/
def toJson (layout : Layout α) (a : α) : Json :=
  .object (layout.fields.filterMap fun f => (f.write a).map fun j => (f.name, j))

/-- Members of an object after its brace, put into `draft`; `seen` holds the names that were there.
One character of `fuel` pays for each member. -/
def readMembers (layout : Layout α) : (fuel : List Char) → (first : Bool) → (seen : List String) →
    (draft : α) → Reader (α × List String)
  | [], _, _, _ => Reader.fail .eofObject
  | _ :: fuel, first, seen, draft => do
    if ← Reader.nextMember first then do
      let key ← Reader.string
      match layout.fields.find? (·.name = key) with
      | some field =>
        if seen.contains key then Reader.fail (.duplicateField key)
        else do
          Reader.colon
          let draft ← field.read draft
          layout.readMembers fuel false (key :: seen) draft
      | none =>
        if layout.closed then Reader.fail (.unknownField key)
        else do
          Reader.colon
          Reader.ignore
          layout.readMembers fuel false seen draft
    else pure (draft, seen)

/-- The first required field that is not among the names seen. -/
def missing? (layout : Layout α) (seen : List String) : Option String :=
  (layout.fields.find? fun f => f.presence = .required && !seen.contains f.name).map (·.name)

/-- An object after its brace. -/
def readObject (layout : Layout α) : Reader α := do
  let (draft, seen) ← layout.readMembers (← get) true [] layout.blank
  match layout.missing? seen with
  | some name => Reader.fail (.missingField name)
  | none => do
    Reader.objectEnd
    pure draft

/-- Items of an array after its bracket, one for each of the fields, of which `index` have been
read. -/
def readItems : (fields : List (Field α)) → (index : Nat) → (first : Bool) → (draft : α) → Reader α
  | [], _, _, draft => pure draft
  | field :: rest, index, first, draft => do
    if ← Reader.nextItem first then do
      let draft ← field.read draft
      readItems rest (index + 1) false draft
    else if field.presence = .defaulted then readItems rest (index + 1) first draft
    else Reader.fail (.invalidLength index)

/-- An array after its bracket. -/
def readArray (layout : Layout α) : Reader α := do
  let a ← readItems layout.fields 0 true layout.blank
  Reader.arrayEnd
  pure a

/-- The record. -/
def read (layout : Layout α) : Reader α := do
  let c ← Reader.valueStart
  if c = '{' then do
    Reader.skip
    layout.readObject
  else if c = '[' then do
    Reader.skip
    layout.readArray
  else Reader.wrongType c

end Layout

/-- One of a fixed set of names. Also an object whose only key is the name and whose value is null.
-/
def Reader.variant {α : Type} (ofName? : String → Option α) : Reader α := do
  let resolve (name : String) : Reader α :=
    match ofName? name with
    | some a => pure a
    | none => Reader.fail (.unknownVariant name)
  match ← Reader.peek with
  | none => Reader.fail .eofValue
  | some c =>
    if c = '"' then do
      Reader.skip
      let name ← Reader.stringRest
      resolve name
    else if c = '{' then do
      Reader.skip
      let name ← Reader.string
      let a ← resolve name
      Reader.colon
      let c ← Reader.valueStart
      if c = 'n' then Reader.skip; Reader.keyword ['u', 'l', 'l'] else Reader.wrongType c
      match ← Reader.peek with
      | none => Reader.fail .eofObject
      | some c =>
        if c = '}' then do
          Reader.skip
          pure a
        else Reader.fail .expectedValue
    else Reader.fail .expectedValue

end ChatArchive.Json
