import TurnRelay.Text.Quote

/-!
# Options of one assistant turn

Each turn runs the command-line assistant once, in print mode with streamed JSON output. The
options of the turn become its flags: a model flag when a model is named, a turn limit when it
is positive, a permission mode when one is given, the unsafe skip when allowed, and the tool
lists joined by commas when they are not empty.

## Main definitions

* `TurnOptions.args` is the argument vector of a turn.
* `PermissionMode.parse` accepts the four permission modes the assistant knows.
-/

namespace TurnRelay.Assistant

/-- The settings of one assistant turn. An absent tool list and an empty one mean the same to
the assistant but are told apart when the settings are shown. -/
structure TurnOptions where
  maxTurns : Int := 0
  model : String := ""
  permissionMode : String := ""
  allowUnsafeSkip : Bool := false
  allowedTools : Option (List String) := none
  disallowedTools : Option (List String) := none
  deriving Inhabited, Repr

/-- The flags that put the assistant into streamed print mode. -/
def baseArgs : List String :=
  ["-p", "--output-format", "stream-json", "--verbose", "--include-partial-messages"]

/-- A flag and its value when the condition holds. -/
def flagIf (cond : Bool) (flag value : String) : List String :=
  if cond then [flag, value] else []

/-- The argument vector of a turn. -/
def TurnOptions.args (o : TurnOptions) : List String :=
  let allowed := o.allowedTools.getD []
  let disallowed := o.disallowedTools.getD []
  baseArgs ++
    flagIf (o.model != "") "--model" o.model ++
    flagIf (o.maxTurns > 0) "--max-turns" (toString o.maxTurns) ++
    flagIf (o.permissionMode != "") "--permission-mode" o.permissionMode ++
    (if o.allowUnsafeSkip then ["--dangerously-skip-permissions"] else []) ++
    flagIf (!allowed.isEmpty) "--allowedTools" (",".intercalate allowed) ++
    flagIf (!disallowed.isEmpty) "--disallowedTools" (",".intercalate disallowed)

/-- The permission modes the assistant accepts. -/
inductive PermissionMode where
  | standard
  | acceptEdits
  | plan
  | bypassPermissions
  deriving DecidableEq, Repr

/-- The spelling of a permission mode on the command line. -/
def PermissionMode.name : PermissionMode → String
  | .standard => "default"
  | .acceptEdits => "acceptEdits"
  | .plan => "plan"
  | .bypassPermissions => "bypassPermissions"

/-- Every permission mode. -/
def PermissionMode.all : List PermissionMode := [.standard, .acceptEdits, .plan, .bypassPermissions]

/-- The mode whose name has exactly the bytes `s`. -/
def PermissionMode.ofBytes (s : ByteArray) : Except String PermissionMode :=
  match PermissionMode.all.find? (·.name.toUTF8 == s) with
  | some m => .ok m
  | none => .error ("unknown permission mode " ++ Text.quoteBytes s)

/-- The mode spelled exactly `s`. -/
def PermissionMode.parse (s : String) : Except String PermissionMode := PermissionMode.ofBytes s.toUTF8

end TurnRelay.Assistant
