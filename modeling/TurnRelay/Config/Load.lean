import TurnRelay.Config.Document
import TurnRelay.Config.Environment
import TurnRelay.Config.Template

/-!
# Loading the settings

The settings are built in three layers and then checked: the defaults; then the configuration
file, if one is named, after its environment references are replaced; then the environment's
variables. The first failure wins: a file that cannot be read, a text that is not a valid
configuration, a variable that does not parse, then a failed check.

## Main definitions

* `FileFault`, `Source`, `LoadError` and its message.
* `fileSettings`: the settings the file gives over the defaults.
* `load`.
-/

namespace TurnRelay.Config

/-- Why a configuration file could not be read. -/
inductive FileFault where
  | missing
  | denied
  | isDirectory
  deriving DecidableEq, Repr

/-- The wording of a file that could not be read, as the file system reports it. -/
def FileFault.message (path : String) : FileFault → String
  | .missing => "open " ++ path ++ ": no such file or directory"
  | .denied => "open " ++ path ++ ": permission denied"
  | .isDirectory => "read " ++ path ++ ": is a directory"

/-- Where the configuration file comes from: none, or a path and the file's bytes (or why it
could not be read). -/
inductive Source where
  | none
  | file (path : String) (contents : Except FileFault ByteArray)

/-- Why the settings could not be loaded. -/
inductive LoadError where
  | unreadable (path : String) (fault : FileFault)
  | malformed (path : String) (e : Yaml.DecodeError)
  | override (e : OverrideError)
  | invalid (e : Invalid)

/-- The wording of a failed load. -/
def LoadError.message : LoadError → ByteArray
  | .unreadable p fault => ("read config file " ++ p ++ ": " ++ fault.message p).toUTF8
  | .malformed p e => ("parse config file " ++ p ++ ": ").toUTF8 ++ e.message
  | .override e => e.message.toUTF8
  | .invalid e => ("invalid configuration: " ++ e.message).toUTF8

/-- The settings a configuration file gives over the defaults, after its environment
references are replaced. -/
def fileSettings (env : Environment) (contents : ByteArray) : Except Yaml.DecodeError Settings :=
  Settings.defaults.readYaml (expandReferences (fun n => List.lookup n env) contents)

/-- The settings before the environment's variables: the defaults, or what the file gives. -/
def baseSettings (env : Environment) : Source → Except LoadError Settings
  | .none => .ok Settings.defaults
  | .file path (.error fault) => .error (.unreadable path fault)
  | .file path (.ok contents) =>
    match fileSettings env contents with
    | .ok s => .ok s
    | .error e => .error (.malformed path e)

/-- Loads the settings: defaults, file, environment, then the checks. -/
def load (source : Source) (env : Environment) : Except LoadError Settings :=
  match baseSettings env source with
  | .error e => .error e
  | .ok base =>
    match applyOverrides env base with
    | .error e => .error (.override e)
    | .ok s =>
      match s.validate with
      | .error e => .error (.invalid e)
      | .ok () => .ok s

end TurnRelay.Config
