import ChatArchive.Config.Settings
import ChatArchive.Text.Utf8
import ChatArchive.Toml.Document

/-!
# Settings from a file

The file is a TOML document with a table for each section. What it leaves out has its default and
what it says beyond that is ignored, but a setting of the wrong kind makes the whole file count as
unreadable. A section may also be an array, which gives its settings in their order.
-/

namespace ChatArchive

open Number

/-- A setting that is read from a value. -/
structure Setting (α : Type) where
  name : String
  read : Toml → α → Option α

namespace Setting

/-- A setting that is converted and put into its place. -/
def of {α β : Type} (name : String) (convert : Toml → Option β) (put : α → β → α) : Setting α :=
  ⟨name, fun v a => (convert v).map (put a)⟩

/-- Reads settings from the entries of a table. -/
def readEntries {α : Type} (entries : List (String × Toml)) : List (Setting α) → α → Option α
  | [], a => some a
  | s :: rest, a =>
    match entries.lookup s.name with
    | some v => do
      let a ← s.read v a
      readEntries entries rest a
    | none => readEntries entries rest a

/-- Reads settings from the items of an array, as far as both reach. -/
def readItems {α : Type} : List Toml → List (Setting α) → α → Option α
  | v :: items, s :: rest, a => do
    let a ← s.read v a
    readItems items rest a
  | _, _, a => some a

/-- Reads a section. A date has no entry that any section knows. -/
def readSection {α : Type} (settings : List (Setting α)) (v : Toml) (a : α) : Option α :=
  match v with
  | .table entries => readEntries entries settings a
  | .array items => readItems items settings a
  | .instant => some a
  | _ => none

end Setting

namespace Toml

/-- A text. -/
def string? : Toml → Option String
  | .string s => some s
  | _ => none

/-- An unsigned 32-bit integer. -/
def uint32? : Toml → Option UInt32
  | .integer i => if 0 ≤ i ∧ i < 4294967296 then some (UInt32.ofNat i.toNat) else none
  | _ => none

/-- An unsigned 64-bit integer. -/
def uint64? : Toml → Option UInt64
  | .integer i => if 0 ≤ i then some (UInt64.ofNat i.toNat) else none
  | _ => none

/-- A number; integers count as numbers. -/
def float? : Toml → Option Binary64
  | .float f => some f
  | .integer i => some (Binary64.ofInt i)
  | _ => none

end Toml

/-- The settings of the database section. -/
def DatabaseSettings.settings : List (Setting DatabaseSettings) := [
  .of "url" Toml.string? fun s v => { s with url := some v }]

/-- The settings of the retry section. -/
def RetryPolicy.settings : List (Setting RetryPolicy) := [
  .of "max_attempts" Toml.uint32? fun s v => { s with maxAttempts := v },
  .of "initial_delay_ms" Toml.uint64? fun s v => { s with initialDelayMs := v },
  .of "max_delay_ms" Toml.uint64? fun s v => { s with maxDelayMs := v },
  .of "multiplier" Toml.float? fun s v => { s with multiplier := v }]

/-- The settings of the section on timeouts. -/
def TimeoutSettings.settings : List (Setting TimeoutSettings) := [
  .of "default_secs" Toml.uint64? fun s v => { s with defaultSecs := v },
  .of "message_add_secs" Toml.uint64? fun s v => { s with messageAddSecs := v },
  .of "session_end_secs" Toml.uint64? fun s v => { s with sessionEndSecs := v },
  .of "metrics_secs" Toml.uint64? fun s v => { s with metricsSecs := v },
  .of "index_secs" Toml.uint64? fun s v => { s with indexSecs := v }]

/-- The settings of the section on listings. -/
def ListingSettings.settings : List (Setting ListingSettings) := [
  .of "default_limit" Toml.uint32? fun s v => { s with defaultLimit := v },
  .of "max_limit" Toml.uint32? fun s v => { s with maxLimit := v }]

/-- The settings of the section on metrics. -/
def MetricsSettings.settings : List (Setting MetricsSettings) := [
  .of "max_scan_documents" Toml.uint32? fun s v => { s with maxScan := v }]

/-- The settings of the section on encryption. -/
def EncryptionSettings.settings : List (Setting EncryptionSettings) := [
  .of "key_env" Toml.string? fun s v => { s with keyVariable := v }]

/-- A section and where it goes. -/
def Setting.section {α β : Type} (name : String) (settings : List (Setting β)) (get : α → β)
    (put : α → β → α) : Setting α :=
  ⟨name, fun v a => (readSection settings v (get a)).map (put a)⟩

/-- All sections. -/
def Settings.sections : List (Setting Settings) := [
  .section "database" DatabaseSettings.settings (·.database) fun s v => { s with database := v },
  .section "retry" RetryPolicy.settings (·.retry) fun s v => { s with retry := v },
  .section "timeouts" TimeoutSettings.settings (·.timeouts) fun s v => { s with timeouts := v },
  .section "listing" ListingSettings.settings (·.listing) fun s v => { s with listing := v },
  .section "metrics" MetricsSettings.settings (·.metrics) fun s v => { s with metrics := v },
  .section "encryption" EncryptionSettings.settings (·.encryption)
    fun s v => { s with encryption := v }]

/-- The settings of a document, if all that it sets is of the right kind. -/
def Settings.parse? (document : List Char) : Option Settings := do
  let entries ← Toml.parse? document
  Setting.readEntries entries Settings.sections .standard

/-- Settings as they are in force, and whether a file was passed over because it is unreadable. -/
structure LoadedSettings where
  settings : Settings
  unreadable : Bool

/-- The settings of a file, which may be missing. -/
def Settings.load : (file : Option (List UInt8)) → LoadedSettings
  | none => ⟨.standard, false⟩
  | some bytes =>
    match (Text.ofUtf8? bytes).bind fun s => parse? s.toList with
    | some settings => ⟨settings, false⟩
    | none => ⟨.standard, true⟩

end ChatArchive
