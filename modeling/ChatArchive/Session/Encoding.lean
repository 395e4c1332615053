import ChatArchive.Json.Encoding
import ChatArchive.Session.Listing
import ChatArchive.Session.Report
import ChatArchive.Session.Stored

/-!
# Sessions as JSON

One layout for each record that is exchanged or stored. Records of the program's interface write a
missing value as null; stored records leave it out and go by short names.
-/

namespace ChatArchive

open Json Time Number

/-- Senders by name. -/
def Sender.encoding : Encoding Sender := .variant Sender.name Sender.ofName?

/-- The layout of messages. -/
def Message.layout : Layout Message where
  blank := Message.plain .user "" .epoch
  fields := [
    .of "content" .required .string (·.content) (fun m v => { m with content := v }),
    .of "timestamp" .required .timestamp (·.time) (fun m v => { m with time := v }),
    .of "sender" .required Sender.encoding (·.sender) (fun m v => { m with sender := v }),
    .of "file_id" .optional (.option .string) (·.fileId) (fun m v => { m with fileId := v }),
    .of "file_url" .optional (.option .string) (·.fileUrl) (fun m v => { m with fileUrl := v }),
    .of "metadata" .optional (.option .labels) (·.labels) (fun m v => { m with labels := v })]
  closed := false

/-- Messages as JSON. -/
def Message.encoding : Encoding Message := .ofLayout Message.layout

/-- The layout of sessions. -/
def Session.layout : Layout Session where
  blank := Session.start "" "" .epoch
  fields := [
    .of "id" .required .string (·.id) (fun s v => { s with id := v }),
    .of "user_id" .required .string (·.userId) (fun s v => { s with userId := v }),
    .of "name" .required .string (·.name) (fun s v => { s with name := v }),
    .of "model_id" .required .string (·.modelId) (fun s v => { s with modelId := v }),
    .of "messages" .required (.list Message.encoding) (·.messages)
      (fun s v => { s with messages := v }),
    .of "start_time" .required .timestamp (·.startTime) (fun s v => { s with startTime := v }),
    .of "last_activity" .required .timestamp (·.lastActivity)
      (fun s v => { s with lastActivity := v }),
    .of "end_time" .optional (.option .timestamp) (·.endTime) (fun s v => { s with endTime := v }),
    .of "help_requested" .required .bool (·.helpRequested)
      (fun s v => { s with helpRequested := v }),
    .of "admin_assisted" .required .bool (·.adminAssisted)
      (fun s v => { s with adminAssisted := v }),
    .of "assisting_admin_id" .optional (.option .string) (·.assistingAdminId)
      (fun s v => { s with assistingAdminId := v }),
    .of "assisting_admin_name" .optional (.option .string) (·.assistingAdminName)
      (fun s v => { s with assistingAdminName := v }),
    .of "total_tokens" .required .uint64 (·.totalTokens) (fun s v => { s with totalTokens := v }),
    .of "response_times" .required (.list .span) (·.responseTimes)
      (fun s v => { s with responseTimes := v })]
  closed := false

/-- Sessions as JSON. -/
def Session.encoding : Encoding Session := .ofLayout Session.layout

/-- The layout of stored messages. -/
def StoredMessage.layout : Layout StoredMessage where
  blank := ⟨"", .epoch, .user, none, none, none⟩
  fields := [
    .of "content" .required .string (·.content) (fun m v => { m with content := v }),
    .of "ts" .required .timestamp (·.time) (fun m v => { m with time := v }),
    .of "sender" .required Sender.encoding (·.sender) (fun m v => { m with sender := v }),
    .omitted "fileId" .string (·.fileId) (fun m v => { m with fileId := v }),
    .omitted "fileUrl" .string (·.fileUrl) (fun m v => { m with fileUrl := v }),
    .omitted "meta" .labels (·.labels) (fun m v => { m with labels := v })]
  closed := false

/-- Stored messages as JSON. -/
def StoredMessage.encoding : Encoding StoredMessage := .ofLayout StoredMessage.layout

/-- The layout of stored sessions. -/
def StoredSession.layout : Layout StoredSession where
  blank := ⟨"", "", "", "", [], .epoch, none, 0, false, none, none, false, 0, 0, 0, none⟩
  fields := [
    .of "_id" .required .string (·.id) (fun s v => { s with id := v }),
    .of "uid" .required .string (·.userId) (fun s v => { s with userId := v }),
    .of "nm" .required .string (·.name) (fun s v => { s with name := v }),
    .of "modelId" .required .string (·.modelId) (fun s v => { s with modelId := v }),
    .of "msgs" .defaulted (.list StoredMessage.encoding) (·.messages)
      (fun s v => { s with messages := v }),
    .of "ts" .required .timestamp (·.startTime) (fun s v => { s with startTime := v }),
    .omitted "endTs" .timestamp (·.endTime) (fun s v => { s with endTime := v }),
    .of "dur" .required .int64 (·.duration) (fun s v => { s with duration := v }),
    .of "adminAssisted" .required .bool (·.adminAssisted)
      (fun s v => { s with adminAssisted := v }),
    .omitted "assistingAdminId" .string (·.assistingAdminId)
      (fun s v => { s with assistingAdminId := v }),
    .omitted "assistingAdminName" .string (·.assistingAdminName)
      (fun s v => { s with assistingAdminName := v }),
    .of "helpRequested" .required .bool (·.helpRequested)
      (fun s v => { s with helpRequested := v }),
    .of "totalTokens" .required .uint64 (·.totalTokens) (fun s v => { s with totalTokens := v }),
    .of "maxRespTime" .required .int64 (·.maxResponseMs) (fun s v => { s with maxResponseMs := v }),
    .of "avgRespTime" .required .int64 (·.avgResponseMs) (fun s v => { s with avgResponseMs := v }),
    .omitted "lastActivity" .timestamp (·.lastActivity)
      (fun s v => { s with lastActivity := v })]
  closed := false

/-- Stored sessions as JSON. -/
def StoredSession.encoding : Encoding StoredSession := .ofLayout StoredSession.layout

/-- The layout of summaries. -/
def Summary.layout : Layout Summary where
  blank := ⟨"", "", "", .epoch, 0, false, .epoch, none, 0, 0, 0⟩
  fields := [
    .of "id" .required .string (·.id) (fun s v => { s with id := v }),
    .of "user_id" .required .string (·.userId) (fun s v => { s with userId := v }),
    .of "name" .required .string (·.name) (fun s v => { s with name := v }),
    .of "last_message_time" .required .timestamp (·.lastMessageTime)
      (fun s v => { s with lastMessageTime := v }),
    .of "message_count" .required .uint32 (·.messageCount)
      (fun s v => { s with messageCount := v }),
    .of "admin_assisted" .required .bool (·.adminAssisted)
      (fun s v => { s with adminAssisted := v }),
    .of "start_time" .required .timestamp (·.startTime) (fun s v => { s with startTime := v }),
    .of "end_time" .optional (.option .timestamp) (·.endTime) (fun s v => { s with endTime := v }),
    .of "total_tokens" .required .uint64 (·.totalTokens) (fun s v => { s with totalTokens := v }),
    .of "max_response_ms" .required .int64 (·.maxResponseMs)
      (fun s v => { s with maxResponseMs := v }),
    .of "avg_response_ms" .required .int64 (·.avgResponseMs)
      (fun s v => { s with avgResponseMs := v })]
  closed := false

/-- Summaries as JSON. -/
def Summary.encoding : Encoding Summary := .ofLayout Summary.layout

/-- Sort keys by name. -/
def SortKey.encoding : Encoding SortKey := .variant SortKey.name SortKey.ofName?

/-- Directions by name. -/
def Direction.encoding : Encoding Direction := .variant Direction.name Direction.ofName?

/-- The layout of listing requests. -/
def ListQuery.layout : Layout ListQuery where
  blank := ListQuery.all
  fields := [
    .of "limit" .required .uint32 (·.limit) (fun q v => { q with limit := v }),
    .of "offset" .required .uint32 (·.offset) (fun q v => { q with offset := v }),
    .of "user_id" .optional (.option .string) (·.userId) (fun q v => { q with userId := v }),
    .of "start_time_from" .optional (.option .timestamp) (·.startFrom)
      (fun q v => { q with startFrom := v }),
    .of "start_time_to" .optional (.option .timestamp) (·.startTo)
      (fun q v => { q with startTo := v }),
    .of "admin_assisted" .optional (.option .bool) (·.adminAssisted)
      (fun q v => { q with adminAssisted := v }),
    .of "active" .optional (.option .bool) (·.active) (fun q v => { q with active := v }),
    .of "sort_by" .required SortKey.encoding (·.sortKey) (fun q v => { q with sortKey := v }),
    .of "sort_order" .required Direction.encoding (·.direction)
      (fun q v => { q with direction := v })]
  closed := false

/-- Listing requests as JSON. -/
def ListQuery.encoding : Encoding ListQuery := .ofLayout ListQuery.layout

/-- The layout of metrics reports. -/
def MetricsReport.layout : Layout MetricsReport where
  blank := ⟨0, 0, 0, 0, 0, 0, 0, .zero, false⟩
  fields := [
    .of "total_sessions" .required .uint64 (·.totalSessions)
      (fun r v => { r with totalSessions := v }),
    .of "active_sessions" .required .uint64 (·.activeSessions)
      (fun r v => { r with activeSessions := v }),
    .of "admin_assisted_count" .required .uint64 (·.adminAssistedCount)
      (fun r v => { r with adminAssistedCount := v }),
    .of "total_tokens" .required .uint64 (·.totalTokens) (fun r v => { r with totalTokens := v }),
    .of "avg_response_ms" .required .int64 (·.avgResponseMs)
      (fun r v => { r with avgResponseMs := v }),
    .of "max_response_ms" .required .int64 (·.maxResponseMs)
      (fun r v => { r with maxResponseMs := v }),
    .of "max_concurrent" .required .uint64 (·.maxConcurrent)
      (fun r v => { r with maxConcurrent := v }),
    .of "avg_concurrent" .required .float (·.avgConcurrent)
      (fun r v => { r with avgConcurrent := v }),
    .of "truncated" .required .bool (·.truncated) (fun r v => { r with truncated := v })]
  closed := false

/-- Metrics reports as JSON. -/
def MetricsReport.encoding : Encoding MetricsReport := .ofLayout MetricsReport.layout

end ChatArchive
