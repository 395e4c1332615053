import ChatArchive.Session.Basic

/-!
# Sessions as they are stored

The stored form of a session has the content of its messages encrypted and its response times
reduced to two figures. It carries its own length in seconds and the time it was last active.
-/

namespace ChatArchive

open Text Time

/-- A message as it is stored. -/
structure StoredMessage where
  content : String
  time : Timestamp
  sender : Sender
  fileId : Option String
  fileUrl : Option String
  labels : Option Labels
deriving DecidableEq

/-- A session as it is stored. -/
structure StoredSession where
  id : String
  userId : String
  name : String
  modelId : String
  messages : List StoredMessage
  startTime : Timestamp
  endTime : Option Timestamp
  duration : Int64
  adminAssisted : Bool
  assistingAdminId : Option String
  assistingAdminName : Option String
  helpRequested : Bool
  totalTokens : UInt64
  maxResponseMs : Int64
  avgResponseMs : Int64
  lastActivity : Option Timestamp
deriving DecidableEq

end ChatArchive
