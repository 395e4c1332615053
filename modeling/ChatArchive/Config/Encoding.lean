import ChatArchive.Config.Settings
import ChatArchive.Json.Encoding

/-!
# Settings as JSON

Every section and every setting may be left out and then has its default.
-/

namespace ChatArchive

open Json

/-- The layout of the database section. -/
def DatabaseSettings.layout : Layout DatabaseSettings where
  blank := .standard
  fields := [.of "url" .defaulted (.option .string) (·.url) (fun s v => { s with url := v })]
  closed := false

/-- The layout of the retry section. -/
def RetryPolicy.layout : Layout RetryPolicy where
  blank := .standard
  fields := [
    .of "max_attempts" .defaulted .uint32 (·.maxAttempts) (fun s v => { s with maxAttempts := v }),
    .of "initial_delay_ms" .defaulted .uint64 (·.initialDelayMs)
      (fun s v => { s with initialDelayMs := v }),
    .of "max_delay_ms" .defaulted .uint64 (·.maxDelayMs) (fun s v => { s with maxDelayMs := v }),
    .of "multiplier" .defaulted .float (·.multiplier) (fun s v => { s with multiplier := v })]
  closed := false

/-- The layout of the section on timeouts. -/
def TimeoutSettings.layout : Layout TimeoutSettings where
  blank := .standard
  fields := [
    .of "default_secs" .defaulted .uint64 (·.defaultSecs) (fun s v => { s with defaultSecs := v }),
    .of "message_add_secs" .defaulted .uint64 (·.messageAddSecs)
      (fun s v => { s with messageAddSecs := v }),
    .of "session_end_secs" .defaulted .uint64 (·.sessionEndSecs)
      (fun s v => { s with sessionEndSecs := v }),
    .of "metrics_secs" .defaulted .uint64 (·.metricsSecs) (fun s v => { s with metricsSecs := v }),
    .of "index_secs" .defaulted .uint64 (·.indexSecs) (fun s v => { s with indexSecs := v })]
  closed := false

/-- The layout of the section on listings. -/
def ListingSettings.layout : Layout ListingSettings where
  blank := .standard
  fields := [
    .of "default_limit" .defaulted .uint32 (·.defaultLimit)
      (fun s v => { s with defaultLimit := v }),
    .of "max_limit" .defaulted .uint32 (·.maxLimit) (fun s v => { s with maxLimit := v })]
  closed := false

/-- The layout of the section on metrics. -/
def MetricsSettings.layout : Layout MetricsSettings where
  blank := .standard
  fields := [
    .of "max_scan_documents" .defaulted .uint32 (·.maxScan) (fun s v => { s with maxScan := v })]
  closed := false

/-- The layout of the section on encryption. -/
def EncryptionSettings.layout : Layout EncryptionSettings where
  blank := .standard
  fields := [
    .of "key_env" .defaulted .string (·.keyVariable) (fun s v => { s with keyVariable := v })]
  closed := false

/-- The layout of all settings. -/
def Settings.layout : Layout Settings where
  blank := .standard
  fields := [
    .of "database" .defaulted (.ofLayout DatabaseSettings.layout) (·.database)
      (fun s v => { s with database := v }),
    .of "retry" .defaulted (.ofLayout RetryPolicy.layout) (·.retry)
      (fun s v => { s with retry := v }),
    .of "timeouts" .defaulted (.ofLayout TimeoutSettings.layout) (·.timeouts)
      (fun s v => { s with timeouts := v }),
    .of "listing" .defaulted (.ofLayout ListingSettings.layout) (·.listing)
      (fun s v => { s with listing := v }),
    .of "metrics" .defaulted (.ofLayout MetricsSettings.layout) (·.metrics)
      (fun s v => { s with metrics := v }),
    .of "encryption" .defaulted (.ofLayout EncryptionSettings.layout) (·.encryption)
      (fun s v => { s with encryption := v })]
  closed := false

/-- Settings as JSON. -/
def Settings.encoding : Encoding Settings := .ofLayout Settings.layout

end ChatArchive
