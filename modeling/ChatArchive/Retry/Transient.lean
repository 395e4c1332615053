import ChatArchive.Text.Digits

/-!
# Transient failures

Whether another attempt may help is read off the wording of a failure.
-/

namespace ChatArchive.Retry

/-- Wordings of failures that pass by themselves. Case counts. -/
def transientPatterns : List String := [
  "connection refused",
  "connection reset",
  "timeout",
  "timed out",
  "temporary failure",
  "i/o timeout",
  "EOF",
  "server selection timeout",
  "no reachable servers",
  "connection pool",
  "socket",
  "database is locked",
  "database table is locked"]

/-- A failure is transient if its wording contains one of the patterns. -/
def isTransient (message : String) : Bool :=
  transientPatterns.any fun p => Text.occursIn p.toList message.toList

end ChatArchive.Retry
