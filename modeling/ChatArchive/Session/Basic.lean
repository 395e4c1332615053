import ChatArchive.Text.Casing
import ChatArchive.Text.Labels
import ChatArchive.Time.Span
import ChatArchive.Time.Timestamp

/-!
# Chat sessions

A session belongs to one user and holds the messages exchanged in it, with whoever else took part:
the model that answers and, if help was needed, an administrator.
-/

namespace ChatArchive

open Text Time

/-- Who wrote a message. -/
inductive Sender
  | user
  | ai
  | admin
deriving DecidableEq, Repr

namespace Sender

/-- The name of a sender. -/
def name : Sender → String
  | .user => "user"
  | .ai => "ai"
  | .admin => "admin"

/-- The sender of this name. -/
def ofName? (name : String) : Option Sender :=
  if name = "user" then some .user
  else if name = "ai" then some .ai
  else if name = "admin" then some .admin
  else none

/-- The sender named in any mix of cases; the message of a refusal shows the name in lower case. -/
def parse (text : String) : Except String Sender :=
  match ofName? (lower text) with
  | some s => .ok s
  | none => .error ("invalid message sender: '" ++ lower text ++ "'")

theorem ofName?_name (s : Sender) : ofName? s.name = some s := by cases s <;> decide

end Sender

/-- A message of a session, in plain text. -/
structure Message where
  content : String
  time : Timestamp
  sender : Sender
  fileId : Option String
  fileUrl : Option String
  labels : Option Labels
deriving DecidableEq

/-- A message without attachment or labels. -/
def Message.plain (sender : Sender) (content : String) (time : Timestamp) : Message :=
  ⟨content, time, sender, none, none, none⟩

/-- A chat session. -/
structure Session where
  id : String
  userId : String
  name : String
  modelId : String
  messages : List Message
  startTime : Timestamp
  lastActivity : Timestamp
  endTime : Option Timestamp
  helpRequested : Bool
  adminAssisted : Bool
  assistingAdminId : Option String
  assistingAdminName : Option String
  totalTokens : UInt64
  responseTimes : List Span
deriving DecidableEq

namespace Session

/-- A session that starts now and holds nothing yet. -/
def start (id userId : String) (now : Timestamp) : Session where
  id := id
  userId := userId
  name := ""
  modelId := ""
  messages := []
  startTime := now
  lastActivity := now
  endTime := none
  helpRequested := false
  adminAssisted := false
  assistingAdminId := none
  assistingAdminName := none
  totalTokens := 0
  responseTimes := []

/-- A session is active until it has an end time. -/
def isActive (s : Session) : Bool := s.endTime.isNone

end Session

end ChatArchive
