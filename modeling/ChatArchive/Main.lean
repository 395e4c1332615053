import ChatArchive.Command.Run
import ChatArchive.Store.Persistence
import Std.Time.DateTime.Timestamp

/-!
# The program

Gathers what a command works with from the environment and the data directory, carries it out, and
writes back what it has changed.
-/

namespace ChatArchive.Command.Program

/-- The bytes of a file; none if it cannot be read. -/
def fileBytes? (path : String) : IO (Option (List UInt8)) := do
  try
    let bytes ← IO.FS.readBinFile path
    pure (some bytes.toList)
  catch _ => pure none

/-- The present. -/
def presentTime : IO Time.Timestamp := do
  let now ← Std.Time.Timestamp.now
  let nanos := now.toNanosecondsSinceUnixEpoch.val
  pure ((Time.Timestamp.ofParts? (nanos / 1000000000) (nanos % 1000000000).toNat).getD .epoch)

/-- A nonce that nobody can foresee. -/
def randomNonce : IO Cipher.Nonce := do
  let bytes ← IO.getRandomBytes 12
  pure (BitVec.ofNat 96 (Cipher.ofBigEndian bytes.toList))

/-- Everything that a command finds, but no tables. -/
def findSite (directory : String) : IO Site := do
  let settingsText ← fileBytes? (joinPath directory settingsFile)
  let name := (Settings.load settingsText).settings.encryption.keyVariable
  let value ← if name.isEmpty then pure none else IO.getEnv name
  pure {
    directory := directory
    environment := value.toList.map fun text => (name, Text.utf8 text)
    settingsText := settingsText
    tables := [] }

/-- An event as a line. -/
def eventLine (e : Event) : String :=
  let shown : EventValue → String
    | .text s => s
    | .number i => toString i
  e.level.name ++ " " ++ e.message ++
    String.join (e.values.map fun (name, v) => " " ++ name ++ "=" ++ shown v)

/-- Prints what a command leaves behind, and returns its status. -/
def printOutput (output : Output) : IO UInt32 := do
  output.events.forM fun e => if e.level = .warning then IO.eprintln (eventLine e) else pure ()
  IO.print output.text
  output.report.forM IO.eprintln
  pure (UInt32.ofNat output.status)

/-- Carries out a command in a data directory. -/
def runInvocation (invocation : Invocation) (directory : String) : IO UInt32 := do
  let site ← findSite directory
  let path := site.databasePath
  let stored ← fileBytes? path
  let table? := match stored with
    | none => some Table.empty
    | some bytes => (Text.ofUtf8? bytes).bind Table.ofText?
  match table? with
  | none => printOutput (.failed ("failed to open database at " ++ path) "file is not a database")
  | some table => do
    let (output, after) :=
      invocation.run (← presentTime) (.counting (← randomNonce)) (site.withTable path table)
    let text := ((after.tables.lookup path).getD table).toText
    if stored.isNone || text != table.toText then IO.FS.writeFile path text
    printOutput output

/-- Carries out a command line, the name of the program left out. -/
def carryOut (words : List String) : IO UInt32 := do
  match Command.read words with
  | .error detour => printOutput detour.output
  | .ok invocation => do
    let home := (← IO.getEnv "HOME").getD "."
    let directory := dataDirectory (← IO.getEnv dataVariable) home
    IO.FS.createDirAll directory
    runInvocation invocation directory

end ChatArchive.Command.Program

/-- The program. -/
def main (words : List String) : IO UInt32 := ChatArchive.Command.Program.carryOut words
