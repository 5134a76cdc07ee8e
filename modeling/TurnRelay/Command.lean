import TurnRelay.Config.Load
import TurnRelay.Logging.Level
import TurnRelay.Assistant.Process
import TurnRelay.Text.Quote

/-!
# The relay's command line

The relay takes one flag, `-config` (also `--config`), naming an optional configuration file;
its value follows as the next argument or after `=`, and the last one given wins. Flags end at
`--`, at `-`, or at the first argument that is not a flag. `-h` and `-help` ask for the usage
text; any other flag is refused with it.

Starting goes through these steps, each of which may stop it with a logged error: load the
settings, set the log level (debug or info, or the configured level), and find the assistant's
program on the search path. Then the relay reports what it serves. Log lines are JSON objects
with the level, the message and the record's attributes, in that order.

## Main definitions

* `Invocation`, `parseArguments`, `usageText`, `searchDirs`.
* `LogValue`, `LogRecord` and its line.
* The startup records: `loadFailure`, `startLevel`, `programRecord`, `storeRecord`,
  `startingRecord`.
-/

namespace TurnRelay.Command

open TurnRelay.Logging

/-- What the command line asks for. -/
inductive Invocation where
  /-- Start, with the configuration file's path (empty for none). -/
  | start (configPath : String)
  | help
  /-- A command line that is not understood, and why. -/
  | refused (reason : String)
  deriving DecidableEq, Repr

/-- The name and the value (after `=`) of a flag written without its dashes. -/
def splitFlag (name : String) : String × Option String :=
  match (name.toList.drop 1).findIdx? (· == '=') with
  | some i => (String.ofList (name.toList.take (i + 1)), some (String.ofList (name.toList.drop (i + 2))))
  | none => (name, none)

/-- Reads flags from the arguments; `path` is the configuration path so far. -/
def readFlags (path : String) : List String → Invocation
  | [] => .start path
  | s :: rest =>
    if s.length < 2 || !s.startsWith "-" then .start path
    else if s == "--" then .start path
    else
      let name := (s.drop (if (s.drop 1).startsWith "-" then 2 else 1)).toString
      if name.isEmpty || name.startsWith "-" || name.startsWith "=" then
        .refused ("bad flag syntax: " ++ s)
      else
        match splitFlag name with
        | ("config", some v) => readFlags v rest
        | ("config", none) =>
          match rest with
          | v :: more => readFlags v more
          | [] => .refused "flag needs an argument: -config"
        | (other, _) =>
          if other == "help" || other == "h" then .help
          else .refused ("flag provided but not defined: -" ++ other)

/-- Reads the command line's arguments. -/
def parseArguments (args : List String) : Invocation := readFlags "" args

/-- The usage text, for a program invoked as `program`. -/
def usageText (program : String) : String :=
  "Usage of " ++ program ++ ":\n  -config string\n    \tpath to an optional YAML configuration file\n"

/-- The value of a log attribute. -/
inductive LogValue where
  | text (s : String)
  | number (n : Int)
  | flag (b : Bool)
  deriving DecidableEq, Repr

/-- A log record: its level, its message and its attributes. -/
structure LogRecord where
  level : Int
  message : String
  attrs : List (String × LogValue) := []
  deriving DecidableEq, Repr

/-- A character as a log line writes it inside a string: quotes, backslashes and control
characters escaped, the line and paragraph separators and the replacement character too. -/
def logChar (c : Char) : String :=
  if c == '"' then "\\\"" else if c == '\\' then "\\\\"
  else if c == '\n' then "\\n" else if c == '\r' then "\\r" else if c == '\t' then "\\t"
  else if c.toNat < 0x20 then "\\u00" ++ Text.hexPadded 2 c.toNat
  else if c == ' ' then "\\u2028" else if c == ' ' then "\\u2029"
  else if c == '�' then "\\ufffd"
  else c.toString

/-- A text as a log line writes it, between quotes. -/
def logString (s : String) : String := "\"" ++ String.join (s.toList.map logChar) ++ "\""

/-- A value as a log line writes it. -/
def LogValue.text? : LogValue → String
  | .text s => logString s
  | .number n => Decimal.intText n
  | .flag b => if b then "true" else "false"

/-- The JSON line of a record. -/
def LogRecord.line (r : LogRecord) : String :=
  let members := [("level", logString (levelName r.level)), ("msg", logString r.message)] ++
    r.attrs.map fun (k, v) => (logString k, v.text?)
  let first := members.take 2 |>.map fun (k, v) => "\"" ++ k ++ "\":" ++ v
  let rest := members.drop 2 |>.map fun (k, v) => k ++ ":" ++ v
  "\x7b" ++ ",".intercalate (first ++ rest) ++ "\x7d"

/-- The level of debug records. -/
def debugLevel : Int := -4

/-- The level of warnings. -/
def warnLevel : Int := 4

/-- The level of errors. -/
def errorLevel : Int := 8

/-- The record of settings that could not be loaded. -/
def loadFailure (e : Config.LoadError) : LogRecord :=
  ⟨errorLevel, "failed to load configuration", [("error", .text (Utf8.decodeLossy e.message))]⟩

/-- The level records are written from: debug or info, or the configured level; a configured
level that does not parse stops the start. -/
def startLevel (s : Config.Settings) : Except LogRecord Int :=
  let base := if s.telemetry.debug then debugLevel else 0
  if s.telemetry.logLevel.isEmpty then .ok base
  else
    let name := Utf8.decodeLossy s.telemetry.logLevel
    match parseLevel name with
    | .ok l => .ok l
    | .error e => .error ⟨errorLevel, "invalid log level", [("level", .text name), ("error", .text e)]⟩

/-- The record of the assistant's program found, or of why it was not. -/
def programRecord (found : Except Assistant.NotFoundError String) : Except LogRecord LogRecord :=
  match found with
  | .ok path => .ok ⟨0, "claude CLI resolved", [("path", .text path)]⟩
  | .error e =>
    .error ⟨errorLevel, "claude CLI not found; install it and log in before starting the proxy",
      [("error", .text e.text)]⟩

/-- Where admission counts are kept, when admission is on: in memory without a store address;
with one, the store is not reached from here and counts stay in memory too. -/
def storeRecord (s : Config.Settings) : Option LogRecord :=
  if !s.admission.enabled then none
  else if s.store.address.isEmpty then
    some ⟨0, "admission counters kept in memory (no redis.address)", []⟩
  else
    some ⟨warnLevel, "redis not reachable, admission counters kept in memory",
      [("error", .text ("dial tcp " ++ Utf8.decodeLossy s.store.address ++ ": no network access"))]⟩

/-- The record of the relay starting to serve. -/
def startingRecord (s : Config.Settings) (version : String) : LogRecord :=
  ⟨0, "proxy starting", [("addr", .text (Utf8.decodeLossy s.listener.addr)),
    ("version", .text version), ("permission_mode", .text (Utf8.decodeLossy s.assistant.permissionMode)),
    ("max_turns", .number s.assistant.maxTurns),
    ("admission", .flag s.admission.enabled)]⟩

/-- The record of a listener that could not serve. -/
def serveFailure (s : Config.Settings) : LogRecord :=
  ⟨errorLevel, "server error",
    [("error", .text ("listen tcp " ++ Utf8.decodeLossy s.listener.addr ++
      ": serving connections is not supported"))]⟩

/-- The directories of a search path: none for the empty path, and an empty entry stands for
the current directory. -/
def searchDirs (path : String) : List String := if path == "" then [] else path.splitOn ":"

/-- The version the relay reports. -/
def version : String := "dev"

/-- The records a start writes once the settings are loaded and the program looked up, each
shown when its level reaches the level in force, and the exit code: the start always ends,
either at a step that fails or when serving is refused. -/
def startRecords (s : Config.Settings) (found : Except Assistant.NotFoundError String) :
    List LogRecord × UInt32 :=
  let base := if s.telemetry.debug then debugLevel else 0
  let shown (level : Int) (rs : List LogRecord) := rs.filter (level ≤ ·.level)
  match startLevel s with
  | .error r => (shown base [r], 1)
  | .ok level =>
    match programRecord found with
    | .error r => (shown level [r], 1)
    | .ok r =>
      (shown level ([r] ++ (storeRecord s).toList ++ [startingRecord s version, serveFailure s]), 1)

end TurnRelay.Command
