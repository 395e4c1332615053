import ChatArchive.Number.Binary64
import ChatArchive.Time.Span

/-!
# Settings

Every setting has a default, so settings without any text are complete.
-/

namespace ChatArchive

open Number Time

/-- Where the database is, if it is not in the data directory. -/
structure DatabaseSettings where
  url : Option String
deriving DecidableEq

/-- How often a failing statement is tried and how long the pauses are. -/
structure RetryPolicy where
  maxAttempts : UInt32
  initialDelayMs : UInt64
  maxDelayMs : UInt64
  multiplier : Binary64
deriving DecidableEq

/-- How long an operation may take, in seconds. -/
structure TimeoutSettings where
  defaultSecs : UInt64
  messageAddSecs : UInt64
  sessionEndSecs : UInt64
  metricsSecs : UInt64
  indexSecs : UInt64
deriving DecidableEq

/-- The sizes of listing pages. -/
structure ListingSettings where
  defaultLimit : UInt32
  maxLimit : UInt32
deriving DecidableEq

/-- How many sessions a metrics report looks at. -/
structure MetricsSettings where
  maxScan : UInt32
deriving DecidableEq

/-- The environment variable that holds the key. -/
structure EncryptionSettings where
  keyVariable : String
deriving DecidableEq

/-- All settings. -/
structure Settings where
  database : DatabaseSettings
  retry : RetryPolicy
  timeouts : TimeoutSettings
  listing : ListingSettings
  metrics : MetricsSettings
  encryption : EncryptionSettings
deriving DecidableEq

/-- No database of its own. -/
def DatabaseSettings.standard : DatabaseSettings := ⟨none⟩

/-- Three attempts, a tenth of a second and its double up to two seconds apart. -/
def RetryPolicy.standard : RetryPolicy := ⟨3, 100, 2000, .finite false 4503599627370496 (-51)⟩

/-- Ten seconds, five for the short operations and thirty for the long ones. -/
def TimeoutSettings.standard : TimeoutSettings := ⟨10, 5, 5, 30, 30⟩

/-- A hundred to the page, and at most a thousand. -/
def ListingSettings.standard : ListingSettings := ⟨100, 1000⟩

/-- A hundred thousand sessions. -/
def MetricsSettings.standard : MetricsSettings := ⟨100000⟩

/-- The usual variable. -/
def EncryptionSettings.standard : EncryptionSettings := ⟨"CHATVAULT_ENCRYPTION_KEY"⟩

/-- The default of every setting. -/
def Settings.standard : Settings where
  database := .standard
  retry := .standard
  timeouts := .standard
  listing := .standard
  metrics := .standard
  encryption := .standard

/-- Two is two: the standard multiplier is the exact double. -/
theorem RetryPolicy.standard_multiplier : RetryPolicy.standard.multiplier = Binary64.ofNat 2 := by
  decide +kernel

end ChatArchive
