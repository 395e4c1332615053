import ChatArchive.Cipher.Content
import ChatArchive.Session.Stored

/-!
# From sessions to their stored form and back

Storing encrypts the content of every message, in order, and reduces the response times to their
largest and their mean. Loading undoes it as far as possible: content that cannot be decrypted is
shown as it is stored, and the response times come back as one sample of the mean.
-/

namespace ChatArchive

open Time

/-- Whole seconds from start to end, never negative. -/
def durationSecs (start finish : Timestamp) : Int64 :=
  Int64.ofInt (max (start.secondsUntil finish) 0)

/-- Milliseconds in 64 bits; larger numbers wrap around. -/
def Time.Span.wrappedMillis (s : Span) : Int64 := Int64.ofInt s.millis

/-- The mean of spans, cut to whole nanoseconds; none if their sum is too long. The count is taken
in 32 bits. -/
def Time.Span.mean? (spans : List Span) : Option Span := do
  let total ← Span.sum? spans
  let count := spans.length % 4294967296
  if count = 0 then none else Span.ofNanos? (total.nanos / count)

/-- The largest and the mean of response times in milliseconds, zero without any; none if their sum
is too long. -/
def responseFigures : List Span → Option (Int64 × Int64)
  | [] => some (0, 0)
  | s :: rest => do
    let mean ← Span.mean? (s :: rest)
    some (Time.Span.wrappedMillis (rest.foldl Span.max s), Span.wrappedMillis mean)

/-- The stored form of a message. -/
def Message.toStored (cipher : ContentCipher) (m : Message) :
    ContentCipher.Drawing StoredMessage := do
  let content ← cipher.encrypt m.content
  pure ⟨content, m.time, m.sender, m.fileId, m.fileUrl, m.labels⟩

/-- The stored form of a session at a point in time: an active session is as long as it has lasted
by then. None stands for response times whose sum is too long, which is found out before any content
is encrypted. -/
def Session.toStored (cipher : ContentCipher) (now : Timestamp) (s : Session) :
    Option (ContentCipher.Drawing StoredSession) := do
  let (maxResponseMs, avgResponseMs) ← responseFigures s.responseTimes
  some do
    let messages ← s.messages.mapM (Message.toStored cipher)
    pure {
      id := s.id
      userId := s.userId
      name := s.name
      modelId := s.modelId
      messages := messages
      startTime := s.startTime
      endTime := s.endTime
      duration := durationSecs s.startTime (s.endTime.getD now)
      adminAssisted := s.adminAssisted
      assistingAdminId := s.assistingAdminId
      assistingAdminName := s.assistingAdminName
      helpRequested := s.helpRequested
      totalTokens := s.totalTokens
      maxResponseMs := maxResponseMs
      avgResponseMs := avgResponseMs
      lastActivity := some s.lastActivity }

/-- The content to show for a stored text, and whether it is the stored text itself. -/
def ContentCipher.reveal (cipher : ContentCipher) (stored : String) : String × Bool :=
  match cipher.decrypt stored with
  | .ok plain => (plain, false)
  | .error _ => (stored, true)

/-- The message of a stored form. -/
def StoredMessage.toMessage (cipher : ContentCipher) (m : StoredMessage) : Message :=
  ⟨(cipher.reveal m.content).1, m.time, m.sender, m.fileId, m.fileUrl, m.labels⟩

/-- The number of messages whose content cannot be decrypted. -/
def StoredSession.fallbacks (cipher : ContentCipher) (s : StoredSession) : Nat :=
  s.messages.countP fun m => (cipher.reveal m.content).2

/-- The response times that are known of a stored session: the mean, if it is positive and so is the
largest. -/
def StoredSession.responseTimes (s : StoredSession) : List Span :=
  if 0 < s.maxResponseMs ∧ 0 < s.avgResponseMs then
    [Span.ofMillis (UInt64.ofNat s.avgResponseMs.toInt.toNat)]
  else []

/-- The session of a stored form. -/
def StoredSession.toSession (cipher : ContentCipher) (s : StoredSession) : Session where
  id := s.id
  userId := s.userId
  name := s.name
  modelId := s.modelId
  messages := s.messages.map (StoredMessage.toMessage cipher)
  startTime := s.startTime
  lastActivity := s.lastActivity.getD s.startTime
  endTime := s.endTime
  helpRequested := s.helpRequested
  adminAssisted := s.adminAssisted
  assistingAdminId := s.assistingAdminId
  assistingAdminName := s.assistingAdminName
  totalTokens := s.totalTokens
  responseTimes := s.responseTimes

end ChatArchive
