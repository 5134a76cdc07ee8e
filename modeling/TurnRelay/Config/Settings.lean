import TurnRelay.Decimal.Integer
import TurnRelay.Assistant.Options

/-!
# The relay's settings

What the relay is started with: where it listens and its timeouts, how the assistant's program
is run, the keepalive interval of streams, the admission limit per client, the shared store,
and logging and metrics. Every field has a default, so the defaults are the empty record.
Durations are counted in nanoseconds. Texts are bytes: a configuration file may give any.

The settings are checked once, after all sources are applied: the listening number must be
from `1` to `65535`, the idle timeout, keepalive interval and lease time must not be negative,
the turn limit must be positive, the permission mode must be a known one, and an enabled
admission limit must be positive. The first check that fails is reported.

## Main definitions

* `Settings` and its parts, `Settings.defaults`.
* `Invalid`, `Settings.validate`.
-/

namespace TurnRelay.Config

/-- Byte strings compare by core's equality, whatever other instance a library in scope adds, so
that the derived equalities below are the same functions wherever they are read. -/
local instance coreByteArrayEq : DecidableEq ByteArray := ByteArray.instDecidableEq

/-- One second, in nanoseconds. -/
def second : Int := 1000000000

/-- Where the relay listens, and its timeouts. -/
structure ListenerSettings where
  host : ByteArray := "127.0.0.1".toUTF8
  portNumber : Int := 3456
  readTimeout : Int := 30 * second
  idleTimeout : Int := 120 * second
  gracefulShutdown : Int := 30 * second
  deriving Inhabited, DecidableEq

/-- The address to listen on: the host, a colon, and the number. -/
def ListenerSettings.addr (l : ListenerSettings) : ByteArray :=
  l.host ++ (":" ++ Decimal.intText l.portNumber).toUTF8

/-- How the assistant's program is run for each turn. -/
structure AssistantSettings where
  programPath : ByteArray := "claude".toUTF8
  maxTurns : Int := 100
  permissionMode : ByteArray := "bypassPermissions".toUTF8
  allowUnsafeSkip : Bool := false
  /-- The tools the assistant may use; none when not restricted. -/
  allowedTools : Option (List ByteArray) := none
  disallowedTools : Option (List ByteArray) := none
  workDir : ByteArray := .empty
  deriving Inhabited, DecidableEq

/-- Streams: the interval of keepalive comments, `0` for none. -/
structure KeepaliveSettings where
  interval : Int := 15 * second
  deriving Inhabited, DecidableEq

/-- The cap on queued and running requests per client, and how long a held count lives. -/
structure AdmissionSettings where
  enabled : Bool := false
  maxPendingPerClient : Int := 4
  leaseTtl : Int := 30 * 60 * second
  deriving Inhabited, DecidableEq

/-- The shared store that admission counts may live in. -/
structure StoreSettings where
  address : ByteArray := .empty
  password : ByteArray := .empty
  db : Int := 0
  poolSize : Int := 10
  deriving Inhabited, DecidableEq

/-- Logging and metrics. The log level, when set, wins over `debug`. -/
structure TelemetrySettings where
  debug : Bool := false
  logLevel : ByteArray := .empty
  metricsEnabled : Bool := true
  deriving Inhabited, DecidableEq

/-- All settings of the relay. -/
structure Settings where
  listener : ListenerSettings := {}
  assistant : AssistantSettings := {}
  keepalive : KeepaliveSettings := {}
  admission : AdmissionSettings := {}
  store : StoreSettings := {}
  telemetry : TelemetrySettings := {}
  deriving Inhabited, DecidableEq

/-- The settings when nothing is configured. -/
def Settings.defaults : Settings := {}

/-- Why settings cannot be used. -/
inductive Invalid where
  | listenNumberRange (n : Int)
  | negativeIdleTimeout
  | negativeKeepalive
  | turnLimit (n : Int)
  | permissionMode (reason : String)
  | admissionLimit
  | negativeLeaseTtl
  deriving DecidableEq, Repr

/-- The wording of a failed check. -/
def Invalid.message : Invalid → String
  | .listenNumberRange n => "server.port out of range: " ++ Decimal.intText n
  | .negativeIdleTimeout => "server.idle_timeout must not be negative"
  | .negativeKeepalive => "stream.keepalive_interval must not be negative"
  | .turnLimit n => "upstream.max_turns must be positive, got " ++ Decimal.intText n
  | .permissionMode reason => "upstream.permission_mode: " ++ reason
  | .admissionLimit =>
    "admission.max_pending_per_client must be positive when admission control is enabled"
  | .negativeLeaseTtl => "admission.lease_ttl must not be negative"

/-- Checks settings, in a fixed order; the first failure is reported. -/
def Settings.validate (s : Settings) : Except Invalid Unit :=
  if s.listener.portNumber ≤ 0 || s.listener.portNumber > 65535 then
    .error (.listenNumberRange s.listener.portNumber)
  else if s.listener.idleTimeout < 0 then .error .negativeIdleTimeout
  else if s.keepalive.interval < 0 then .error .negativeKeepalive
  else if s.assistant.maxTurns ≤ 0 then .error (.turnLimit s.assistant.maxTurns)
  else
    match Assistant.PermissionMode.ofBytes s.assistant.permissionMode with
    | .error reason => .error (.permissionMode reason)
    | .ok _ =>
      if s.admission.enabled && s.admission.maxPendingPerClient ≤ 0 then .error .admissionLimit
      else if s.admission.leaseTtl < 0 then .error .negativeLeaseTtl
      else .ok ()

end TurnRelay.Config
