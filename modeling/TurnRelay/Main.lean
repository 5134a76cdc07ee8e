import TurnRelay.Command

/-!
# The relay's program

Reads the command line, the configuration file and the environment, looks the assistant's
program up in the directories of the search path, and writes the start's log records to the
error stream, one line each. What a start decides is `Command`'s; here it is only fed and
printed.
-/

namespace TurnRelay.Command

/-- How a failed read of the configuration file is reported. -/
def fileFault : IO.Error → Config.FileFault
  | .noFileOrDirectory .. => .missing
  | .permissionDenied .. => .denied
  | _ => .isDirectory

/-- The configuration source a path names: none for the empty path. -/
def readSource (path : String) : IO Config.Source := do
  if path == "" then return .none
  try
    return .file path (.ok (← IO.FS.readBinFile path))
  catch e =>
    return .file path (.error (fileFault e))

/-- The variables the settings read, and those the file refers to. -/
def readEnvironment (source : Config.Source) : IO Config.Environment := do
  let referenced := match source with
    | .file _ (.ok bytes) => Config.referencedNames bytes
    | _ => []
  let names := (Config.variableNames ++ referenced).eraseDups
  names.filterMapM fun name => do
    return (← IO.getEnv name).map (name, ·)

/-- What a path names on the host; a regular file counts as a program. -/
def pathKind (path : String) : IO Assistant.PathKind := do
  try
    let m ← (System.mkFilePath [path]).metadata
    return if m.type == .dir then .directory else .file true
  catch
    | .noFileOrDirectory .. => return .missing
    | _ => return .notDirectory

/-- The paths the lookup of `program` may look at. -/
def candidates (program : String) (dirs : List String) : List String :=
  let p := if program == "" then Assistant.defaultProgram else program
  if p.contains '/' then [p]
  else dirs.map fun dir => Text.joinPath (if dir == "" then "." else dir) p

/-- The host as the lookup sees it, read for the paths it may look at. -/
def readHost (paths : List String) : IO Assistant.Host := do
  let kinds ← paths.mapM fun p => do return (p, ← pathKind p)
  return ⟨fun p => (kinds.lookup p).getD .missing⟩

/-- Writes log records to the error stream. -/
def writeRecords (records : List LogRecord) : IO Unit :=
  records.forM fun r => IO.eprintln r.line

/-- The name the usage text calls the program by. -/
def programName : String := "turn-relay"

end TurnRelay.Command

open TurnRelay TurnRelay.Command in
/-- Starts the relay with the command line's arguments. -/
def main (args : List String) : IO UInt32 := do
  match parseArguments args with
  | .help =>
    IO.eprint (usageText programName)
    return 0
  | .refused reason =>
    IO.eprintln reason
    IO.eprint (usageText programName)
    return 2
  | .start configPath =>
    let source ← readSource configPath
    let env ← readEnvironment source
    match Config.load source env with
    | .error e =>
      writeRecords [loadFailure e]
      return 1
    | .ok s =>
      let dirs := searchDirs ((← IO.getEnv "PATH").getD "")
      let program := Utf8.decodeLossy s.assistant.programPath
      let host ← readHost (candidates program dirs)
      let (records, code) := startRecords s (Assistant.resolveProgramOn host dirs program)
      writeRecords records
      return code
