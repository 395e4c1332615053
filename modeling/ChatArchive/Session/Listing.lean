import ChatArchive.Session.Basic

/-!
# Listing sessions

What a listing shows of a session and how a listing is asked for: filters that must all hold, a key
and a direction to sort by, and a page given by its offset and size.
-/

namespace ChatArchive

open Text Time

/-- A session in a listing. -/
structure Summary where
  id : String
  userId : String
  name : String
  lastMessageTime : Timestamp
  messageCount : UInt32
  adminAssisted : Bool
  startTime : Timestamp
  endTime : Option Timestamp
  totalTokens : UInt64
  maxResponseMs : Int64
  avgResponseMs : Int64
deriving DecidableEq

/-- What a listing is sorted by. -/
inductive SortKey
  | startTime
  | endTime
  | messageCount
  | totalTokens
  | userId
deriving DecidableEq, Repr

namespace SortKey

/-- The name of a sort key. -/
def name : SortKey → String
  | .startTime => "ts"
  | .endTime => "endTs"
  | .messageCount => "message_count"
  | .totalTokens => "totalTokens"
  | .userId => "uid"

/-- All sort keys. -/
def all : List SortKey := [.startTime, .endTime, .messageCount, .totalTokens, .userId]

/-- The sort key of this name. -/
def ofName? (name : String) : Option SortKey := all.find? (·.name = name)

/-- The second name that a sort key goes by when it is typed. -/
def alias? : SortKey → Option String
  | .startTime => some "start_time"
  | .endTime => some "end_time"
  | .messageCount => none
  | .totalTokens => some "total_tokens"
  | .userId => some "user_id"

/-- The sort key typed as one of its names. -/
def parse (text : String) : Except String SortKey :=
  match all.find? fun k => k.name = text || k.alias? = some text with
  | some k => .ok k
  | none => .error ("invalid sort field: '" ++ text ++ "'")

theorem ofName?_name (k : SortKey) : ofName? k.name = some k := by cases k <;> decide

end SortKey

/-- Which way a listing is sorted. -/
inductive Direction
  | ascending
  | descending
deriving DecidableEq, Repr

namespace Direction

/-- The name of a direction. -/
def name : Direction → String
  | .ascending => "asc"
  | .descending => "desc"

/-- The direction of this name. -/
def ofName? (name : String) : Option Direction :=
  if name = "asc" then some .ascending
  else if name = "desc" then some .descending
  else none

/-- The direction named in any mix of cases; the message of a refusal shows the name in lower case.
-/
def parse (text : String) : Except String Direction :=
  match ofName? (lower text) with
  | some d => .ok d
  | none => .error ("invalid sort order: '" ++ lower text ++ "'")

theorem ofName?_name (d : Direction) : ofName? d.name = some d := by cases d <;> decide

end Direction

/-- A request for a page of a listing. -/
structure ListQuery where
  limit : UInt32
  offset : UInt32
  userId : Option String
  startFrom : Option Timestamp
  startTo : Option Timestamp
  adminAssisted : Option Bool
  active : Option Bool
  sortKey : SortKey
  direction : Direction
deriving DecidableEq

namespace ListQuery

/-- All sessions, the latest start first, with the default page size. -/
def all : ListQuery where
  limit := 0
  offset := 0
  userId := none
  startFrom := none
  startTo := none
  adminAssisted := none
  active := none
  sortKey := .startTime
  direction := .descending

/-- The size of a page: what was asked for, or the default for zero, but at most the maximum and at
least one. -/
def pageSize (q : ListQuery) (standard most : UInt32) : UInt32 :=
  max (min (if q.limit = 0 then standard else q.limit) most) 1

end ListQuery

/-- Sorts summaries by message count; summaries with the same count keep their order. -/
def sortByMessageCount (direction : Direction) (summaries : List Summary) : List Summary :=
  summaries.mergeSort fun a b =>
    match direction with
    | .ascending => a.messageCount ≤ b.messageCount
    | .descending => b.messageCount ≤ a.messageCount

end ChatArchive
