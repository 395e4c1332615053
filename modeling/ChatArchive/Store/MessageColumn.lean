import ChatArchive.Json.Tree
import ChatArchive.Store.Row

/-!
# The messages of a row as text

Listings and appends look into the messages column without reading the messages. The column must
hold JSON; what is not an array counts as no messages and stays as it is when a message is appended.
-/

namespace ChatArchive.MessageColumn

open Json

/-- The tree that a column holds. -/
def tree (text : String) : Except DatabaseError Json :=
  match Json.parse text with
  | .ok j => .ok j
  | .error _ => .error .malformedJson

/-- The number of messages. -/
def count : Json → Nat
  | .array items => items.length
  | _ => 0

/-- The first member of an object with this name. -/
def member? (name : String) : Json → Option Json
  | .object members => members.lookup name
  | _ => none

/-- A member as a text: a string is its own text, null is none, and the rest is its JSON text. -/
def plainText? : Json → Option String
  | .null => none
  | .string s => some s
  | j => some j.compact

/-- The time of the last message, if the messages have a last one and it has a time. -/
def lastTime? : Json → Option String
  | .array items => (items.getLast?.bind (member? "ts")).bind plainText?
  | _ => none

/-- The column with one more message at its end. -/
def append (item : Json) : Json → Json
  | .array items => .array (items ++ [item])
  | j => j

end ChatArchive.MessageColumn
