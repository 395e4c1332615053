import ChatArchive.Command.Grid
import ChatArchive.Session.Encoding

/-!
# Reports

What commands print: lines for readers, grids of sessions and figures, and JSON.
-/

namespace ChatArchive.Command

open Json Number Text Time

/-- A text followed by a line break. -/
def line (text : String) : String := text ++ "\n"

/-- An empty line. -/
def blank : String := "\n"

/-- A text between empty lines. -/
def framed (text : String) : String := blank ++ text ++ blank

/-- A grid, line by line. -/
def gridText (g : Grid) : String :=
  String.join (g.lines.map fun l => line (String.ofList l))

/-- JSON over several lines. -/
def jsonText (j : Json) : String := line j.pretty

/-- JSON of an instant. -/
def timeJson (t : Timestamp) : Json := Encoding.timestamp.write t

/-- A length of time: hours and minutes, minutes, or seconds, whichever is the first that is not
zero. -/
def durationText (secs : Int) : String :=
  let total := secs.toNat
  let hours := total / 3600
  let minutes := total % 3600 / 60
  if 0 < hours then toString hours ++ "h " ++ toString minutes ++ "m"
  else if 0 < minutes then toString minutes ++ "m"
  else toString total ++ "s"

/-- An instant to the minute. -/
def minuteText (t : Timestamp) : String := String.ofList t.minuteText

/-- A name of at most 30 characters; longer ones are cut and marked with points. -/
def shortName (name : String) : String :=
  if 30 < name.length then String.ofList (name.toList.take 27) ++ "..." else name

/-- The cells of a listed session. -/
def summaryCells (s : Summary) : List String :=
  let duration := match s.endTime with
    | some finish => durationText (s.startTime.secondsUntil finish)
    | none => "active"
  [s.id, s.userId, shortName s.name, minuteText s.startTime, duration,
    toString s.messageCount.toNat, toString s.totalTokens.toNat,
    if s.adminAssisted then "yes" else "no"]

/-- The grid of a listing. -/
def summaryGrid (summaries : List Summary) : Grid where
  header := ["ID", "User", "Name", "Started", "Duration", "Messages", "Tokens", "Admin"]
  rows := summaries.map summaryCells

/-- A listing. -/
def listingText (offset : UInt32) (summaries : List Summary) : String :=
  if summaries.isEmpty then framed (line "  i No sessions found.")
  else
    let plural := if summaries.length = 1 then "" else "s"
    framed (gridText (summaryGrid summaries)) ++
      line ("  " ++ toString summaries.length ++ " session" ++ plural ++ " (offset " ++
        toString offset.toNat ++ ")") ++ blank

/-- The cells of an active session. -/
def activeCells (now : Timestamp) (s : Session) : List String :=
  [s.id, s.userId, minuteText s.startTime, durationText (s.startTime.secondsUntil now),
    toString s.messages.length, minuteText s.lastActivity]

/-- The active sessions. -/
def activeText (now : Timestamp) (sessions : List Session) : String :=
  if sessions.isEmpty then framed (line "  i No active sessions.")
  else
    framed (gridText {
      header := ["ID", "User", "Started", "Running", "Messages", "Last activity"]
      rows := sessions.map (activeCells now) })

/-- How a transcript names a sender. -/
def senderTitle : Sender → String
  | .user => "**User**"
  | .ai => "**Assistant**"
  | .admin => "**Admin**"

/-- A message of a transcript. -/
def messageText (m : Message) : String :=
  line ("### " ++ senderTitle m.sender ++ " (" ++ String.ofList m.time.hourMinuteText ++ ")") ++
    blank ++ line m.content ++
    (match m.fileUrl with
      | some url => blank ++ line ("_Attachment:_ " ++ url)
      | none => "") ++ blank

/-- An item of the list at the head of a transcript. -/
def item (title text : String) : String := line ("- **" ++ title ++ ":** " ++ text)

/-- The end and the length of a session, if it has ended. -/
def endItems (s : Session) : String :=
  match s.endTime with
  | some finish =>
    item "Ended" (minuteText finish ++ " UTC") ++
      item "Duration" (durationText (s.startTime.secondsUntil finish))
  | none => ""

/-- A session with its messages. -/
def transcriptText (s : Session) : String :=
  line ("# " ++ if s.name.isEmpty then "Untitled Session" else s.name) ++ blank ++
    item "ID" s.id ++ item "User" s.userId ++
    (if s.modelId.isEmpty then "" else item "Model" s.modelId) ++
    item "Started" (minuteText s.startTime ++ " UTC") ++ endItems s ++
    item "Messages" (toString s.messages.length) ++
    item "Tokens" (toString s.totalTokens.toNat) ++
    (match s.assistingAdminName with
      | some admin => item "Assisted by" admin
      | none => "") ++
    blank ++ line "---" ++ blank ++ String.join (s.messages.map messageText)

/-- The grid of figures. -/
def figureGrid (r : MetricsReport) : Grid where
  header := ["Metric", "Value"]
  rows := [
    ["Total sessions", toString r.totalSessions.toNat],
    ["Active sessions", toString r.activeSessions.toNat],
    ["Admin assisted", toString r.adminAssistedCount.toNat],
    ["Total tokens", toString r.totalTokens.toNat],
    ["Avg response", String.ofList (signedDigits r.avgResponseMs.toInt) ++ " ms"],
    ["Max response", String.ofList (signedDigits r.maxResponseMs.toInt) ++ " ms"],
    ["Peak concurrent", toString r.maxConcurrent.toNat],
    ["Avg concurrent", String.ofList (r.avgConcurrent.toFixed 2)]]

/-- The figures of a window, which cover a part of the sessions only if there are more than a limit.
-/
def figuresText (start finish : Timestamp) (limit : UInt32) (r : MetricsReport) : String :=
  framed (line ("  Sessions from " ++ minuteText start ++ " to " ++ minuteText finish)) ++
    gridText (figureGrid r) ++
    (if r.truncated then
      blank ++ line ("  ! Scan limit of " ++ toString limit.toNat ++
        " sessions reached; figures cover a sample.")
    else "") ++ blank

/-- The figures of a window as JSON, members in the order of their names. -/
def figuresJson (start finish : Timestamp) (r : MetricsReport) : Json :=
  Json.sorted (.object [("from", timeJson start), ("to", timeJson finish),
    ("metrics", MetricsReport.encoding.write r)])

/-- The tokens of a window. -/
def tokensText (total : Nat) : String := framed (line ("  " ++ toString total ++ " tokens"))

/-- The tokens of a window as JSON. -/
def tokensJson (start finish : Timestamp) (total : Nat) : Json :=
  Json.sorted (.object [("from", timeJson start), ("to", timeJson finish),
    ("total_tokens", .ofNat total)])

/-- That a session has ended. -/
def endedText (id : String) : String := framed (line ("  ✓ Session " ++ id ++ " ended."))

/-- That a session has ended, as JSON. -/
def endedJson (id : String) (time : Timestamp) : Json :=
  Json.sorted (.object [("id", .string id), ("ended", .bool true), ("end_time", timeJson time)])

/-- That the store is ready. -/
def readyText (directory : String) : String :=
  framed (line ("  ✓ Session store ready in " ++ directory))

/-- That the store is ready, as JSON. -/
def readyJson (directory : String) : Json :=
  Json.sorted (.object [("data_dir", .string directory), ("initialized", .bool true)])

end ChatArchive.Command
