import TurnRelay.Config.Settings
import TurnRelay.Decimal.Duration
import TurnRelay.Text.Space

/-!
# Settings from the environment

Some settings may be given by environment variables, applied in a fixed order over the settings
read so far. A string variable applies when it is set and not empty. An integer, boolean or
duration variable applies when it is set and not empty and no variable before it failed to
parse; one that fails to parse is the load's failure. A tool list applies whenever the variable
is set: it is split at commas, each part trimmed of white space, and empty parts dropped, so an
empty value clears the list. A duration is a whole number of seconds, or a duration text; the
seconds are counted in nanoseconds in 64-bit arithmetic, wrapping around.

The admission limit per client, when its variable is set and not empty, also turns admission
on when positive and off otherwise.

## Main definitions

* `Environment`, `OverrideError`.
* `Field`, `Override`, `overrides`, `variableNames`, `applyOverrides`.
-/

namespace TurnRelay.Config

/-- The environment: variables and their values. -/
abbrev Environment := List (String × String)

/-- Why an environment variable could not be applied. -/
structure OverrideError where
  name : String
  reason : String
  deriving DecidableEq, Repr

/-- The wording of a variable that does not parse. -/
def OverrideError.message (e : OverrideError) : String := e.name ++ ": " ++ e.reason

/-- A tool list from a variable: its comma-separated parts, trimmed, without empty ones; none
when no part is left. -/
def splitList (s : String) : Option (List String) :=
  let trim (cs : List Char) : List Char :=
    ((cs.dropWhile Utf8.isSpaceChar).reverse.dropWhile Utf8.isSpaceChar).reverse
  let parts := (s.toList.splitOn ',').map trim |>.filter (!·.isEmpty)
  if parts.isEmpty then none else some (parts.map String.ofList)

/-- A duration from a variable: whole seconds (wrapping at 64 bits), or a duration text. -/
def overrideDuration (v : String) : Except String Int :=
  match Decimal.parseWord v with
  | .ok n => .ok (Decimal.wrapWord (n * second))
  | .error _ =>
    match Decimal.parseDuration v with
    | .ok d => .ok d
    | .error e => .error (e.message v)

/-- An integer from a variable. -/
def overrideNumber (v : String) : Except String Int :=
  match Decimal.parseWord v with
  | .ok n => .ok n
  | .error e => .error (e.message Decimal.atoiName v)

/-- A boolean from a variable. -/
def overrideFlag (v : String) : Except String Bool :=
  match Decimal.parseFlag v with
  | some b => .ok b
  | none => .error (Decimal.flagErrorMessage v)

/-- A field of the settings that a variable writes, as a pointer to it: how the field is read
and how it is written. Writing back what was read changes nothing. -/
structure Field (α : Type) where
  get : Settings → α
  set : Settings → α → Settings
  set_get : ∀ s, set s (get s) = s

/-- A setting an environment variable may give, and how. -/
inductive Override where
  | text (name : String) (field : Field ByteArray)
  /-- A value that must parse. -/
  | parsed (name : String) (apply : String → Settings → Except String Settings)
  | list (name : String) (field : Field (Option (List ByteArray)))

/-- Settings with variables applied, and the first variable that failed to parse. -/
structure Overriding where
  settings : Settings
  failure : Option OverrideError := none

/-- The variable an override reads. -/
def Override.name : Override → String
  | .text name _ | .parsed name _ | .list name _ => name

/-- Applies one variable. -/
def Override.apply (env : Environment) (o : Overriding) : Override → Overriding
  | .text name field =>
    match env.lookup name with
    | some v => if v != "" then { o with settings := field.set o.settings v.toUTF8 } else o
    | none => o
  | .parsed name apply =>
    match env.lookup name with
    | some v =>
      if v == "" || o.failure.isSome then o
      else
        match apply v o.settings with
        | .ok s => { o with settings := s }
        | .error reason => { o with failure := some ⟨name, reason⟩ }
    | none => o
  | .list name field =>
    match env.lookup name with
    | some v => { o with settings := field.set o.settings ((splitList v).map (·.map String.toUTF8)) }
    | none => o

/-- A variable whose value `read` turns into a field's value. -/
def Override.reading {α : Type} (read : String → Except String α) (name : String)
    (field : Field α) : Override :=
  .parsed name fun v s => do return field.set s (← read v)

/-- A variable that sets an integer field. -/
def Override.number (name : String) (field : Field Int) : Override :=
  .reading overrideNumber name field

/-- A variable that sets a boolean field. -/
def Override.flag (name : String) (field : Field Bool) : Override :=
  .reading overrideFlag name field

/-- A variable that sets a duration field. -/
def Override.duration (name : String) (field : Field Int) : Override :=
  .reading overrideDuration name field

/-- The variables and the fields they set, in the order they are applied. -/
def overrides : List Override := [
  .text "CLAUDE_PROXY_HOST"
    ⟨(·.listener.host), fun s v => { s with listener := { s.listener with host := v } },
      fun _ => rfl⟩,
  .number "CLAUDE_PROXY_PORT"
    ⟨(·.listener.portNumber),
      fun s v => { s with listener := { s.listener with portNumber := v } }, fun _ => rfl⟩,
  .duration "CLAUDE_PROXY_IDLE_TIMEOUT"
    ⟨(·.listener.idleTimeout),
      fun s v => { s with listener := { s.listener with idleTimeout := v } }, fun _ => rfl⟩,
  .duration "CLAUDE_PROXY_KEEPALIVE_INTERVAL"
    ⟨(·.keepalive.interval), fun s v => { s with keepalive := { s.keepalive with interval := v } },
      fun _ => rfl⟩,
  .number "CLAUDE_PROXY_MAX_TURNS"
    ⟨(·.assistant.maxTurns), fun s v => { s with assistant := { s.assistant with maxTurns := v } },
      fun _ => rfl⟩,
  .text "CLAUDE_PROXY_PERMISSION_MODE"
    ⟨(·.assistant.permissionMode),
      fun s v => { s with assistant := { s.assistant with permissionMode := v } }, fun _ => rfl⟩,
  .flag "CLAUDE_PROXY_ALLOW_UNSAFE_SKIP"
    ⟨(·.assistant.allowUnsafeSkip),
      fun s v => { s with assistant := { s.assistant with allowUnsafeSkip := v } }, fun _ => rfl⟩,
  .text "CLAUDE_PROXY_CLI_PATH"
    ⟨(·.assistant.programPath),
      fun s v => { s with assistant := { s.assistant with programPath := v } }, fun _ => rfl⟩,
  .text "CLAUDE_PROXY_WORK_DIR"
    ⟨(·.assistant.workDir), fun s v => { s with assistant := { s.assistant with workDir := v } },
      fun _ => rfl⟩,
  .list "CLAUDE_PROXY_ALLOWED_TOOLS"
    ⟨(·.assistant.allowedTools),
      fun s v => { s with assistant := { s.assistant with allowedTools := v } }, fun _ => rfl⟩,
  .list "CLAUDE_PROXY_DISALLOWED_TOOLS"
    ⟨(·.assistant.disallowedTools),
      fun s v => { s with assistant := { s.assistant with disallowedTools := v } }, fun _ => rfl⟩,
  .flag "CLAUDE_PROXY_DEBUG"
    ⟨(·.telemetry.debug), fun s v => { s with telemetry := { s.telemetry with debug := v } },
      fun _ => rfl⟩,
  .text "CLAUDE_PROXY_LOG_LEVEL"
    ⟨(·.telemetry.logLevel), fun s v => { s with telemetry := { s.telemetry with logLevel := v } },
      fun _ => rfl⟩,
  .text "CLAUDE_PROXY_REDIS_ADDR"
    ⟨(·.store.address), fun s v => { s with store := { s.store with address := v } },
      fun _ => rfl⟩,
  .text "CLAUDE_PROXY_REDIS_PASSWORD"
    ⟨(·.store.password), fun s v => { s with store := { s.store with password := v } },
      fun _ => rfl⟩]

/-- The variable of the admission limit per client. -/
def admissionLimitVariable : String := "CLAUDE_PROXY_MAX_PENDING_PER_CLIENT"

/-- Applies the admission limit variable: the limit, and admission on exactly when it is
positive. -/
def applyAdmissionLimit (env : Environment) (o : Overriding) : Overriding :=
  match env.lookup admissionLimitVariable with
  | some v =>
    if v == "" then o
    else
      let o := (Override.number admissionLimitVariable
        ⟨(·.admission.maxPendingPerClient),
          fun s n => { s with admission := { s.admission with maxPendingPerClient := n } },
          fun _ => rfl⟩).apply env o
      { o with settings := { o.settings with admission :=
          { o.settings.admission with enabled := decide (o.settings.admission.maxPendingPerClient > 0) } } }
  | none => o

/-- Every variable the settings read. -/
def variableNames : List String := overrides.map Override.name ++ [admissionLimitVariable]

/-- Applies the environment's variables to settings; the first variable that failed to parse
is the failure. -/
def applyOverrides (env : Environment) (s : Settings) : Except OverrideError Settings :=
  let o := applyAdmissionLimit env (overrides.foldl (Override.apply env) { settings := s })
  match o.failure with
  | some e => .error e
  | none => .ok o.settings

end TurnRelay.Config
