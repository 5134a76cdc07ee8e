import TurnRelay.Config.Settings
import TurnRelay.Yaml.Decode

/-!
# Settings in a configuration file

A configuration file is a YAML mapping of sections (`server`, `upstream`, `stream`,
`admission`, `redis`, `telemetry`), each a mapping of its fields. A field the file gives
replaces the value it had; everything else keeps its value. Unknown keys are passed over. The
file's sections and fields are the `Shape` below, with the type names a misfit is reported by.

## Main definitions

* `settingsShape`.
* `Settings.assign`, `Settings.readYaml`.
-/

namespace TurnRelay.Config

open TurnRelay.Yaml

/-- The fields of a configuration file and their kinds. -/
def settingsShape : Shape :=
  .record "config.Config" [
    ("server", .record "config.ServerConfig" [
      ("host", .text), ("port", .integer), ("read_timeout", .duration),
      ("idle_timeout", .duration), ("graceful_shutdown", .duration)]),
    ("upstream", .record "config.UpstreamConfig" [
      ("cli_path", .text), ("max_turns", .integer), ("permission_mode", .text),
      ("allow_unsafe_skip", .flag), ("allowed_tools", .textList),
      ("disallowed_tools", .textList), ("work_dir", .text)]),
    ("stream", .record "config.StreamConfig" [("keepalive_interval", .duration)]),
    ("admission", .record "config.AdmissionConfig" [
      ("enabled", .flag), ("max_pending_per_client", .integer), ("lease_ttl", .duration)]),
    ("redis", .record "config.RedisConfig" [
      ("address", .text), ("password", .text), ("db", .integer), ("pool_size", .integer)]),
    ("telemetry", .record "config.TelemetryConfig" [
      ("debug", .flag), ("log_level", .text), ("metrics_enabled", .flag)])]

/-- Sets the field a path names; a path of no field changes nothing. -/
def Settings.assign (s : Settings) : Assignment → Settings
  | (["server", "host"], .text v) => { s with listener := { s.listener with host := v } }
  | (["server", "port"], .integer v) => { s with listener := { s.listener with portNumber := v } }
  | (["server", "read_timeout"], .duration v) =>
    { s with listener := { s.listener with readTimeout := v } }
  | (["server", "idle_timeout"], .duration v) =>
    { s with listener := { s.listener with idleTimeout := v } }
  | (["server", "graceful_shutdown"], .duration v) =>
    { s with listener := { s.listener with gracefulShutdown := v } }
  | (["upstream", "cli_path"], .text v) =>
    { s with assistant := { s.assistant with programPath := v } }
  | (["upstream", "max_turns"], .integer v) =>
    { s with assistant := { s.assistant with maxTurns := v } }
  | (["upstream", "permission_mode"], .text v) =>
    { s with assistant := { s.assistant with permissionMode := v } }
  | (["upstream", "allow_unsafe_skip"], .flag v) =>
    { s with assistant := { s.assistant with allowUnsafeSkip := v } }
  | (["upstream", "allowed_tools"], .textList v) =>
    { s with assistant := { s.assistant with allowedTools := v } }
  | (["upstream", "disallowed_tools"], .textList v) =>
    { s with assistant := { s.assistant with disallowedTools := v } }
  | (["upstream", "work_dir"], .text v) => { s with assistant := { s.assistant with workDir := v } }
  | (["stream", "keepalive_interval"], .duration v) =>
    { s with keepalive := { s.keepalive with interval := v } }
  | (["admission", "enabled"], .flag v) => { s with admission := { s.admission with enabled := v } }
  | (["admission", "max_pending_per_client"], .integer v) =>
    { s with admission := { s.admission with maxPendingPerClient := v } }
  | (["admission", "lease_ttl"], .duration v) =>
    { s with admission := { s.admission with leaseTtl := v } }
  | (["redis", "address"], .text v) => { s with store := { s.store with address := v } }
  | (["redis", "password"], .text v) => { s with store := { s.store with password := v } }
  | (["redis", "db"], .integer v) => { s with store := { s.store with db := v } }
  | (["redis", "pool_size"], .integer v) => { s with store := { s.store with poolSize := v } }
  | (["telemetry", "debug"], .flag v) => { s with telemetry := { s.telemetry with debug := v } }
  | (["telemetry", "log_level"], .text v) =>
    { s with telemetry := { s.telemetry with logLevel := v } }
  | (["telemetry", "metrics_enabled"], .flag v) =>
    { s with telemetry := { s.telemetry with metricsEnabled := v } }
  | _ => s

/-- Reads a configuration file's bytes over settings: the settings with the fields it gives
replaced, or why the file cannot be read. -/
def Settings.readYaml (s : Settings) (bytes : ByteArray) : Except DecodeError Settings :=
  match decodeBytes bytes settingsShape with
  | .ok as => .ok (as.foldl Settings.assign s)
  | .error e => .error e

end TurnRelay.Config
