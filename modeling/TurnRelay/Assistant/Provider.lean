import TurnRelay.Assistant.Message
import TurnRelay.Assistant.Options

/-!
# What a turn hands over

Starting a turn either fails at once or yields the turn's results in order: each one an
understood line of output or a failure. A start may also abort outright, which nothing above it
can recover from but the task runner; that is kept apart from an ordinary start failure.

The failures of the command-line assistant are of two kinds besides plain ones: the program
was not found, or its process failed (it could not start, its output could not be read, or it
exited before the turn was complete). A process failure keeps the last bytes the process wrote
to its error stream and its exit code.
-/

namespace TurnRelay.Assistant

/-- The assistant's process failed. Its message and error stream are bytes as the process
wrote them. -/
structure ProcessError where
  message : ByteArray
  stderr : ByteArray := ByteArray.empty
  /-- The exit code; `-1` when a signal ended the process, `0` when it did not exit. -/
  exitCode : Int := 0
  deriving Inhabited

/-- The wording of a process failure: the exit code is told when it is not zero. -/
def ProcessError.text (e : ProcessError) : ByteArray :=
  let code := if e.exitCode != 0 then " (exit code " ++ toString e.exitCode ++ ")" else ""
  ("claude process error: ".toUTF8 ++ e.message) ++ code.toUTF8

/-- The assistant's program could not be found. -/
structure NotFoundError where
  path : String
  cause : String
  deriving Inhabited

/-- The wording of a missing program. -/
def NotFoundError.text (e : NotFoundError) : String :=
  "claude CLI not found at " ++ Text.quote e.path ++ ": " ++ e.cause

/-- A failure of a turn. -/
inductive TurnError where
  | plain (message : String)
  | process (e : ProcessError)
  | notFound (e : NotFoundError)
  deriving Inhabited

/-- The wording of a failure, as text. -/
def TurnError.message : TurnError → String
  | .plain m => m
  | .process e => Utf8.decodeLossy e.text
  | .notFound e => e.text

/-- One result of a running turn. -/
inductive Item where
  | message (m : Message)
  | failure (e : TurnError)
  deriving Inhabited

/-- How starting a turn went. -/
inductive Started where
  /-- The turn ran and produced these results. -/
  | items (results : List Item)
  /-- The turn could not start. -/
  | failed (e : TurnError)
  /-- Starting aborted the caller outright. -/
  | panicked (message : String)
  deriving Inhabited

end TurnRelay.Assistant
