import ChatArchive.Number.Binary64

/-!
# Figures over sessions
-/

namespace ChatArchive

open Number

/-- Figures over the sessions that started in a window. `truncated` says that more sessions matched
than were looked at. -/
structure MetricsReport where
  totalSessions : UInt64
  activeSessions : UInt64
  adminAssistedCount : UInt64
  totalTokens : UInt64
  avgResponseMs : Int64
  maxResponseMs : Int64
  maxConcurrent : UInt64
  avgConcurrent : Binary64
  truncated : Bool
deriving DecidableEq

end ChatArchive
