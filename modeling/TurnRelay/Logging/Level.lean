import TurnRelay.Decimal.Integer
import TurnRelay.Text.Case

/-!
# Log levels

A level is an integer: `DEBUG` is -4, `INFO` 0, `WARN` 4 and `ERROR` 8, and any integer in
between or beyond is a level too. A level is written as one of the four names, in any case,
optionally followed by a signed offset (`INFO-2`, `error+100`), and shown as the name of the
nearest named level at or below it with the offset from it (`WARN+1`). Levels are 64-bit
integers and offsets wrap around.

## Main definitions

* `parseLevel`, `levelName`.
-/

namespace TurnRelay.Logging

open TurnRelay.Decimal

/-- The named levels. -/
def namedLevels : List (String × Int) := [("DEBUG", -4), ("INFO", 0), ("WARN", 4), ("ERROR", 8)]

/-- The offset of the first sign in a text, if any. -/
def signAt (cs : List Char) : Option Nat := cs.findIdx? (fun c => c == '+' || c == '-')

/-- Reads an upper-cased level; a failure gives its cause without the text. -/
def parseLevelCause (u : String) : Except String Int :=
  let cs := u.toList
  let (name, offset) : String × Except String Int :=
    match signAt cs with
    | some i =>
      let suffix := String.ofList (cs.drop i)
      (String.ofList (cs.take i), (parseWord suffix).mapError (·.message atoiName suffix))
    | none => (u, .ok 0)
  match offset with
  | .error e => .error e
  | .ok k =>
    match namedLevels.find? (·.1 == name) with
    | some (_, base) => .ok (wrapWord (base + k))
    | none => .error "unknown name"

/-- Reads a level, names in any case. -/
def parseLevel (s : String) : Except String Int :=
  let u := Text.upper s
  (parseLevelCause u).mapError fun e => "slog: level string " ++ Text.quote u ++ ": " ++ e

/-- A name and the offset from it, the offset with its sign. -/
def withOffset (base : String) (offset : Int) : String :=
  if offset == 0 then base else base ++ signedText offset

/-- How a level is shown. -/
def levelName (l : Int) : String :=
  if l < 0 then withOffset "DEBUG" (wrapWord (l + 4))
  else if l < 4 then withOffset "INFO" l
  else if l < 8 then withOffset "WARN" (l - 4)
  else withOffset "ERROR" (l - 8)

end TurnRelay.Logging
