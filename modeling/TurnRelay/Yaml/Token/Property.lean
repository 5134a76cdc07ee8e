import TurnRelay.Yaml.Token.Scalar
import TurnRelay.Text.Utf8

/-!
# Scanning node properties and directives

An anchor `&name` or alias `*name` is a non-empty run of name characters, followed by a blank
or an indicator that may follow a node. A tag is `!<uri>` (verbatim), `!handle!suffix`,
`!suffix`, or `!` alone; a URI is a run of URI characters where `%` starts an escaped octet, and
the escaped octets must make UTF-8.

A directive line starts with `%` at the start of a line: `%YAML major.minor`, or `%TAG` with a
handle and a prefix. A directive of another name is refused.

## Main definitions

* `anchorToken`, `tagToken`, `directiveToken`.
-/

namespace TurnRelay.Yaml

/-- Whether an anchor or alias name may end before `c`. -/
def endsName (c : Char) : Bool :=
  isBlankOrEnd c || c == '?' || c == ':' || c == ',' || c == ']' || c == '\x7d' || c == '%' ||
    c == '@' || c.toNat == 0x60

/-- Scans an anchor or, with `isAlias`, an alias. -/
def anchorToken (isAlias : Bool) : ScanM Token := do
  let start := (← get).mark
  skip
  let name ← readWhile (fun s => isWordChar (s.peek 0)) "" (← get).remaining
  let stop := (← get).mark
  if name.isEmpty || !endsName (← ahead 0) then
    scanFail (if isAlias then "while scanning an alias" else "while scanning an anchor") start
      "did not find expected alphabetic or numeric character"
  return ⟨if isAlias then .alias name else .anchor name, start, stop⟩

/-- Fails in a tag (or a `%TAG` directive, with `directive`). -/
def tagFail {α : Type} (directive : Bool) (start : Mark) (problem : String) : ScanM α :=
  scanFail (if directive then "while parsing a %TAG directive" else "while parsing a tag") start
    problem

/-- Scans a tag handle: `!`, then name characters, then `!` if present. In a directive the
handle must end with `!` unless it is `!` alone. -/
def tagHandle (directive : Bool) (start : Mark) : ScanM String := do
  if (← ahead 0) != '!' then tagFail directive start "did not find expected '!'"
  let handle ← read ""
  let handle ← readWhile (fun s => isWordChar (s.peek 0)) handle (← get).remaining
  if (← ahead 0) == '!' then read handle
  else
    if directive && handle != "!" then tagFail directive start "did not find expected '!'"
    return handle

/-- A character a URI may hold. The flow indicators `,`, `[` and `]` are among them, in every
context: a tag in a flow collection runs on over them. -/
def isUriChar (c : Char) : Bool :=
  isWordChar c || ";/?:@&=+$,.!~*'()[]%".contains c

/-- The number of bytes of a UTF-8 sequence its first byte announces; `0` for a byte that
cannot start one. -/
def sequenceWidth (b : Nat) : Nat :=
  if b &&& 0x80 == 0 then 1
  else if b &&& 0xE0 == 0xC0 then 2
  else if b &&& 0xF0 == 0xE0 then 3
  else if b &&& 0xF8 == 0xF0 then 4
  else 0

/-- Reads the escaped octets `%hh` of one UTF-8 sequence into `acc`; `left` is how many are
still to come, `none` before the first. -/
def uriEscapes (directive : Bool) (start : Mark) (acc : ByteArray) (left : Option Nat) :
    Nat → ScanM ByteArray
  | 0 => pure acc
  | fuel + 1 => do
    let s ← get
    if !(s.peek 0 == '%' && isHexChar (s.peek 1) && isHexChar (s.peek 2)) then
      tagFail directive start "did not find URI escaped octet"
    let octet := hexDigitValue (s.peek 1) * 16 + hexDigitValue (s.peek 2)
    let width ← match left with
      | none =>
        let w := sequenceWidth octet
        if w == 0 then tagFail directive start "found an incorrect leading UTF-8 octet"
        pure w
      | some w =>
        if octet &&& 0xC0 != 0x80 then tagFail directive start "found an incorrect trailing UTF-8 octet"
        pure w
    skipN 3
    let acc := acc.push octet.toUInt8
    if width ≤ 1 then return acc
    uriEscapes directive start acc (some (width - 1)) fuel

/-- Reads URI characters into `acc`. -/
def uriChars (directive : Bool) (start : Mark) (acc : ByteArray) : Nat → ScanM ByteArray
  | 0 => pure acc
  | fuel + 1 => do
    let c ← ahead 0
    if !isUriChar c then return acc
    if c == '%' then
      let acc ← uriEscapes directive start acc none 4
      uriChars directive start acc fuel
    else
      skip
      uriChars directive start (acc ++ c.toString.toUTF8) fuel

/-- Scans a tag URI, after `head` without its first character; an empty result is refused
unless `head` was given. -/
def tagUri (directive : Bool) (head : String) (start : Mark) : ScanM String := do
  let init := (head.drop 1).toString.toUTF8
  let bytes ← uriChars directive start init (← get).remaining
  if bytes.size == 0 && head.isEmpty then tagFail directive start "did not find expected tag URI"
  return Utf8.decodeLossy bytes

/-- Scans a tag: its handle and suffix. -/
def tagToken : ScanM Token := do
  let start := (← get).mark
  let (handle, suffix) ←
    if (← ahead 1) == '<' then do
      skip
      skip
      let suffix ← tagUri false "" start
      if (← ahead 0) != '>' then scanFail "while scanning a tag" start "did not find the expected '>'"
      skip
      pure ("", suffix)
    else do
      let handle ← tagHandle false start
      if handle.length > 1 && handle.endsWith "!" then
        let suffix ← tagUri false "" start
        pure (handle, suffix)
      else
        let suffix ← tagUri false handle start
        if suffix.isEmpty then pure ("", "!") else pure ("!", suffix)
  let c ← ahead 0
  if !isBlankOrEnd c && ((← get).flowLevel == 0 || c != ',') then
    scanFail "while scanning a tag" start "did not find expected whitespace or line break"
  return ⟨.tag handle suffix, start, (← get).mark⟩

/-- Reads the digits of a version number: one or two. -/
def versionNumber (start : Mark) : ScanM Nat := do
  let s ← get
  let digits := ((List.range 3).map s.peek).takeWhile Char.isDigit
  if digits.length > 2 then
    skipN 2
    scanFail "while scanning a %YAML directive" start "found extremely long version number"
  if digits.isEmpty then
    scanFail "while scanning a %YAML directive" start "did not find expected version number"
  skipN digits.length
  return digits.foldl (fun v d => v * 10 + (d.toNat - '0'.toNat)) 0

/-- Scans the value of a `%YAML` directive. -/
def versionValue (start : Mark) : ScanM TokenKind := do
  skipBlanks
  let major ← versionNumber start
  if (← ahead 0) != '.' then
    scanFail "while scanning a %YAML directive" start "did not find expected digit or '.' character"
  skip
  let minor ← versionNumber start
  return .versionDirective major minor

/-- Scans the value of a `%TAG` directive. -/
def tagDirectiveValue (start : Mark) : ScanM TokenKind := do
  skipBlanks
  let handle ← tagHandle true start
  if !isBlank (← ahead 0) then
    scanFail "while scanning a %TAG directive" start "did not find expected whitespace"
  skipBlanks
  let pre ← tagUri true "" start
  if !isBlankOrEnd (← ahead 0) then
    scanFail "while scanning a %TAG directive" start "did not find expected whitespace or line break"
  return .tagDirective handle pre

/-- Scans a directive line, up to and including its line break. -/
def directiveToken : ScanM Token := do
  let start := (← get).mark
  skip
  let name ← readWhile (fun s => isWordChar (s.peek 0)) "" (← get).remaining
  if name.isEmpty then
    scanFail "while scanning a directive" start "could not find expected directive name"
  if !isBlankOrEnd (← ahead 0) then
    scanFail "while scanning a directive" start "found unexpected non-alphabetical character"
  let kind ←
    if name == "YAML" then versionValue start
    else if name == "TAG" then tagDirectiveValue start
    else scanFail "while scanning a directive" start "found unknown directive name"
  let stop := (← get).mark
  skipBlanks
  if (← ahead 0) == '#' then skipToBreak
  if !isBreakOrEnd (← ahead 0) then
    scanFail "while scanning a directive" start "did not find expected comment or line break"
  if isBreak (← ahead 0) then skipLine
  return ⟨kind, start, stop⟩

end TurnRelay.Yaml
