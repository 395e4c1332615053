import ChatArchive.Command.Arguments
import ChatArchive.Command.Report
import ChatArchive.Config.Environment
import ChatArchive.Config.Reading
import ChatArchive.Store.Figures
import ChatArchive.Store.Writing

/-!
# Carrying out commands

A command works on the table of the database that the settings name. It prints a text and leaves
with status zero, or prints nothing on its output, reports what it could not do and why, and leaves
with status one. Command lines that do not fit leave with status two.
-/

namespace ChatArchive.Command

open Time

/-- What a command finds: its data directory, the environment, the text of the settings file if
there is one, and the tables of the databases by their paths. -/
structure Site where
  directory : String
  environment : Variables
  settingsText : Option (List UInt8)
  tables : List (String × Table)

/-- What a command leaves behind besides its tables: its status, the text that it printed, its
report if it failed, and the events on its way. -/
structure Output where
  status : Nat
  text : String
  report : Option String
  events : List Event
deriving DecidableEq

namespace Output

/-- A text that was printed. -/
def printed (text : String) : Output := ⟨0, text, none, []⟩

/-- A command line that does not fit. -/
def misused : Output := ⟨2, "", none, []⟩

/-- The end of a program that could not go on. -/
def broken : Output := ⟨101, "", none, []⟩

/-- The lines of a cause, set in by four blanks. -/
def indented (cause : String) : String :=
  String.ofList ("    ".toList ++ cause.toList.flatMap fun c =>
    if c = '\n' then "\n    ".toList else [c])

/-- A report of what could not be done, and why. -/
def failed (attempt cause : String) : Output :=
  ⟨1, "", some ("Error: " ++ attempt ++ "\n\nCaused by:\n" ++ indented cause), []⟩

end Output

/-- The version of the program. -/
def versionNumber : String := "0.1.0"

/-- The commands and their options. -/
def helpText : String := String.join ([
  "Inspect and administer persisted chat sessions.",
  "",
  "Usage: chatvault [--json] [-v] [--otel] <command>",
  "",
  "  init                                create the database and its indexes",
  "  sessions list [filters] [page]      list sessions",
  "  sessions active                     show sessions that have not ended",
  "  sessions show <id>                  show a session with its transcript",
  "  sessions end <id>                   mark a session as ended now",
  "  metrics [--from t] [--to t]         figures of the sessions started in a window",
  "  tokens [--from t] [--to t]          tokens of the sessions started in a window",
  "",
  "  filters: --user, --from, --to, --admin-assisted, --active",
  "  page: --sort, --order, --limit, --offset"].map line)

/-- The answer to a command line that is not carried out. -/
def Detour.output : Detour → Output
  | .version command => .printed (line (command ++ " " ++ versionNumber))
  | .help => .printed helpText
  | .misuse => .misused

/-- The instant a day before. A leap second counts as the second after it. -/
def dayBefore? (t : Timestamp) : Option Timestamp :=
  if 1000000000 ≤ t.nanos then Timestamp.ofParts? (t.second + 1 - 86400) (t.nanos - 1000000000)
  else Timestamp.ofParts? (t.second - 86400) t.nanos

/-- The ends of a window: it ends now and starts a day before its end, unless it says otherwise. -/
def Window.bounds (w : Window) (now : Timestamp) : Action (Timestamp × Timestamp) :=
  let finish := w.finish.getD now
  match w.start.or (dayBefore? finish) with
  | some start => pure (start, finish)
  | none => throw .overflow

/-- What a request does, and the text that it prints. -/
def Request.perform (json : Bool) (now : Timestamp) (directory : String) :
    Request → Action String
  | .init => do
    Store.ensureIndexes
    pure (if json then jsonText (readyJson directory) else readyText directory)
  | .list query => do
    let summaries ← Store.list query
    pure (if json then jsonText (Summary.encoding.list.write summaries)
      else listingText query.offset summaries)
  | .active => do
    let sessions ← Store.active
    pure (if json then jsonText (Session.encoding.list.write sessions) else activeText now sessions)
  | .transcript id => do
    let session ← Store.get id
    pure (if json then jsonText (Session.encoding.write session) else transcriptText session)
  | .finish id => do
    Store.finish id now
    pure (if json then jsonText (endedJson id now) else endedText id)
  | .metrics window => do
    let (first, last) ← window.bounds now
    let figures ← Store.metrics first last
    let s ← getThe Store
    pure (if json then jsonText (figuresJson first last figures)
      else figuresText first last s.settings.metrics.maxScan figures)
  | .tokens window => do
    let (first, last) ← window.bounds now
    let total ← Store.tokens first last
    pure (if json then jsonText (tokensJson first last total.toNat) else tokensText total.toNat)

/-- What a request that fails could not do. -/
def Request.attempt : Request → String
  | .init => "failed to create indexes"
  | .list _ => "failed to list sessions"
  | .active => "failed to load active sessions"
  | .transcript id => "failed to load session '" ++ id ++ "'"
  | .finish id => "failed to end session '" ++ id ++ "'"
  | .metrics _ => "failed to compute session metrics"
  | .tokens _ => "failed to compute token usage"

/-- The path of a database, from its URL. -/
def databasePath (url : String) : String :=
  let cs := url.toList
  let path :=
    if "sqlite://".toList.isPrefixOf cs then cs.drop 9
    else if "sqlite:".toList.isPrefixOf cs then cs.drop 7
    else cs
  String.ofList (path.takeWhile (· != '?'))

/-- The path of the database that a command works on. -/
def Site.databasePath (site : Site) : String :=
  Command.databasePath ((Settings.load site.settingsText).settings.databaseUrl site.directory)

/-- The site with another table at a path. -/
def Site.withTable (site : Site) (path : String) (table : Table) : Site :=
  { site with tables := (path, table) :: site.tables.filter (·.1 != path) }

/-- The settings and the cipher that a command works with, or why there is none. -/
def Site.cipher (site : Site) (settings : Settings) : Except Output ContentCipher :=
  match ContentCipher.ofKey? (keyBytes (settings.keyText? site.environment)) with
  | .ok cipher => .ok cipher
  | .error e =>
    .error (.failed ("invalid encryption key in $" ++ settings.encryption.keyVariable) e.message)

/-- The event that tells of a settings file that was passed over. -/
def settingsEvent (directory : String) : Event where
  level := .warning
  message := "failed to read " ++ joinPath directory settingsFile ++ ", using defaults"
  values := []

/-- The event that tells of a missing key. -/
def keyEvent (name : String) : Event where
  level := .warning
  message := "no encryption key configured, message content is stored in plaintext"
  values := [("key_env", .text name)]

/-- The events before a command has done anything. -/
def Site.events (site : Site) (loaded : LoadedSettings) : List Event :=
  (if loaded.unreadable then [settingsEvent site.directory] else []) ++
    if (loaded.settings.keyText? site.environment).isNone then
      [keyEvent loaded.settings.encryption.keyVariable]
    else []

/-- Carries out a command. Its database is there from then on, even if the key is refused. -/
def Invocation.run (i : Invocation) (now : Timestamp) (nonces : Cipher.Nonces) (site : Site) :
    Output × Site :=
  let loaded := Settings.load site.settingsText
  let path := site.databasePath
  let table := (site.tables.lookup path).getD .empty
  match site.cipher loaded.settings with
  | .error output => ({ output with events := site.events loaded }, site.withTable path table)
  | .ok cipher =>
    let store := { Store.fresh loaded.settings cipher nonces with
      table := table, events := site.events loaded }
    let (result, store) := store.perform (i.request.perform i.json now site.directory)
    let output := match result with
      | .ok text => Output.printed text
      | .error (.failed e) => .failed i.request.attempt e.message
      | .error .overflow => .broken
    ({ output with events := store.events }, site.withTable path store.table)

/-- Carries out a command line, the name of the program left out. -/
def runLine (words : List String) (now : Timestamp) (nonces : Cipher.Nonces) (site : Site) :
    Output × Site :=
  match read words with
  | .ok invocation => invocation.run now nonces site
  | .error detour => (detour.output, site)

end ChatArchive.Command
