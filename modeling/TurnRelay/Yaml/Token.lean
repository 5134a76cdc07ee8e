/-!
# Tokens of a YAML stream

A YAML stream is read in three steps: characters become tokens, tokens become events, events
become a tree of nodes. This module holds what the first step produces: positions in the text,
the tokens with their spans, and the problems any step may report.

A position counts characters from the start, lines from `0` and columns from `0`. A problem
names what was being read (its context, where that began) and what went wrong (where it was
found). Its message tells one line: for a token-level problem the line after the one where
reading began, for a structural problem that line itself, and none on the first line.

## Main definitions

* `Mark`, `ScalarStyle`, `TokenKind`, `Token`.
* `Stage`, `Problem` and `Problem.message`.
-/

namespace TurnRelay.Yaml

/-- A position in the text: characters, lines and columns before it. -/
structure Mark where
  index : Nat := 0
  line : Nat := 0
  column : Nat := 0
  deriving Inhabited, DecidableEq, Repr

/-- How a scalar was written. -/
inductive ScalarStyle where
  | plain
  | singleQuoted
  | doubleQuoted
  | literal
  | folded
  deriving Inhabited, DecidableEq, Repr

/-- Whether a style is one of the quoted or block styles, which always give text. -/
def ScalarStyle.isIndicated : ScalarStyle → Bool
  | .plain => false
  | _ => true

/-- The kinds of token. -/
inductive TokenKind where
  | streamStart
  | streamEnd
  | versionDirective (major minor : Nat)
  | tagDirective (handle pre : String)
  | documentStart
  | documentEnd
  | blockSequenceStart
  | blockMappingStart
  | blockEnd
  | flowSequenceStart
  | flowSequenceEnd
  | flowMappingStart
  | flowMappingEnd
  | blockEntry
  | flowEntry
  | key
  | value
  | alias (name : String)
  | anchor (name : String)
  | tag (handle suffix : String)
  | scalar (text : String) (style : ScalarStyle)
  deriving Inhabited, DecidableEq, Repr

/-- A token and the span it covers. -/
structure Token where
  kind : TokenKind
  start : Mark
  stop : Mark
  deriving Inhabited, Repr

/-- The step that found a problem. -/
inductive Stage where
  /-- The text holds a character that may not appear in YAML. -/
  | reader
  /-- Characters do not make a token. -/
  | scanner
  /-- Tokens do not make a well-formed document. -/
  | parser
  deriving Inhabited, DecidableEq, Repr

/-- A problem reading a stream. -/
structure Problem where
  stage : Stage
  context : String := ""
  contextMark : Mark := {}
  problem : String
  problemMark : Mark := {}
  deriving Inhabited, Repr

/-- The line a problem is told at, from `1`; `0` when none is told. -/
def Problem.line (p : Problem) : Nat :=
  let shift := if p.stage == .scanner then 1 else 0
  if p.contextMark.line != 0 then p.contextMark.line + shift
  else if p.problemMark.line != 0 then p.problemMark.line + shift
  else 0

/-- The message of a problem: the line, when one is told, and what went wrong. -/
def Problem.message (p : Problem) : String :=
  let place := if p.line != 0 then "line " ++ toString p.line ++ ": " else ""
  place ++ (if p.problem != "" then p.problem else "unknown problem parsing YAML content")

end TurnRelay.Yaml
