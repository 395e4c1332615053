import ChatArchive.Config.Settings
import ChatArchive.Text.Utf8

/-!
# The environment

Where the data is kept and which key is used follow from environment variables. The key is the text
of a variable that the settings name; a variable that is empty or not a text counts as missing.
-/

namespace ChatArchive

/-- Environment variables with the bytes of their values. -/
abbrev Variables := List (String × List UInt8)

/-- The text of a variable. A name that is empty or holds an equals sign or a null character is
never set. -/
def Variables.text? (environment : Variables) (name : String) : Option String :=
  if name.isEmpty || name.toList.contains '=' || name.toList.contains '\x00' then none
  else (environment.lookup name).bind Text.ofUtf8?

/-- The text of the key, if there is one. -/
def Settings.keyText? (s : Settings) (environment : Variables) : Option String :=
  (environment.text? s.encryption.keyVariable).filter fun text => !text.isEmpty

/-- The bytes of a key; none without a key. -/
def keyBytes : Option String → List UInt8
  | none => []
  | some text => Text.utf8 text

/-- A name inside a directory. A name that starts at the root stands for itself. -/
def joinPath (directory name : String) : String :=
  if name.startsWith "/" then name
  else if directory.isEmpty || directory.endsWith "/" then directory ++ name
  else directory ++ "/" ++ name

/-- The variable that names the data directory. -/
def dataVariable : String := "CHATVAULT_DATA_DIR"

/-- The data directory: the one that is set, or else one in the home directory. -/
def dataDirectory (set : Option String) (home : String) : String :=
  match set with
  | some directory => if directory.isEmpty then joinPath home ".chatvault" else directory
  | none => joinPath home ".chatvault"

/-- The name of the database in the data directory. -/
def databaseFile : String := "chatvault.db"

/-- The name of the settings in the data directory. -/
def settingsFile : String := "config.toml"

/-- The URL of the database in a data directory. -/
def standardUrl (directory : String) : String :=
  "sqlite://" ++ joinPath directory databaseFile ++ "?mode=rwc"

/-- The URL of the database: the one that is set, or else the one in the data directory. -/
def Settings.databaseUrl (s : Settings) (directory : String) : String :=
  s.database.url.getD (standardUrl directory)

end ChatArchive
