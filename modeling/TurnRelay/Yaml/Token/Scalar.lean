import TurnRelay.Yaml.Token.Cursor

/-!
# Scanning scalars

A scalar is written plain, between single or double quotes, or as a block (`|` literal, `>`
folded). Plain and quoted scalars may run over several lines: a single line break between two
lines is folded into a space, several are kept as one line feed fewer, and blanks around the
breaks are dropped. A plain scalar ends before `: ` or ` #`, before a flow indicator inside a
flow collection, at a document marker, and at a line indented no deeper than its parent. Within
double quotes a backslash starts an escape; within single quotes `''` is a quote.

A block scalar keeps its lines as they are, below an indentation taken from its first
non-empty line (or given by a digit after the indicator). The folded style joins lines as the
plain style does, except around lines that start with a blank. The final line breaks are kept
once (clip, the default), dropped (`-`) or all kept (`+`).

## Main definitions

* `Folding` and `Folding.join`: whitespace pending between two pieces of a scalar.
* `plainScalar`, `flowScalar`, `blockScalar`.
-/

namespace TurnRelay.Yaml

/-- The text of a scalar so far, with the blanks and breaks read since its last character. -/
structure Folding where
  text : String := ""
  leadingBreak : String := ""
  trailingBreaks : String := ""
  whitespaces : String := ""
  /-- Whether a line break has been read since the last character. -/
  leadingBlanks : Bool := false
  deriving Inhabited

/-- Adds the pending whitespace to the text: after a line break, one line feed becomes a space
and further breaks are kept; otherwise the blanks are kept. -/
def Folding.join (f : Folding) : Folding :=
  if f.leadingBlanks then
    let text :=
      if f.leadingBreak.startsWith "\n" then
        if f.trailingBreaks.isEmpty then f.text.push ' ' else f.text ++ f.trailingBreaks
      else f.text ++ f.leadingBreak ++ f.trailingBreaks
    { f with text := text, leadingBreak := "", trailingBreaks := "", leadingBlanks := false }
  else if !f.whitespaces.isEmpty then { f with text := f.text ++ f.whitespaces, whitespaces := "" }
  else f

/-- Reads blanks and line breaks into the pending whitespace. With `tabCheck`, a tab at the
start of a continuation line left of `indent` is refused. -/
def readGap (tabCheck : Bool) (start : Mark) (indent : Int) (f : Folding) : Nat → ScanM Folding
  | 0 => pure f
  | fuel + 1 => do
    let s ← get
    let c := s.peek 0
    if isBlank c then
      if tabCheck && f.leadingBlanks && (s.mark.column : Int) < indent && c == '\t' then
        scanFail "while scanning a plain scalar" start "found a tab character that violates indentation"
      if !f.leadingBlanks then
        let ws ← read f.whitespaces
        readGap tabCheck start indent { f with whitespaces := ws } fuel
      else
        skip
        readGap tabCheck start indent f fuel
    else if isBreak c then
      if !f.leadingBlanks then
        let lb ← readLine f.leadingBreak
        readGap tabCheck start indent
          { f with whitespaces := "", leadingBreak := lb, leadingBlanks := true } fuel
      else
        let tb ← readLine f.trailingBreaks
        readGap tabCheck start indent { f with trailingBreaks := tb } fuel
    else return f

/-- Whether a character ends a plain scalar here: `:` before a blank, or a flow indicator
inside a flow collection. -/
def Scanner.endsPlain (s : Scanner) : Bool :=
  let c := s.peek 0
  (c == ':' && isBlankOrEnd (s.peek 1)) ||
    (s.flowLevel > 0 && (c == ',' || c == '?' || c == '[' || c == ']' || c == '\x7b' || c == '\x7d'))

/-- Reads one run of characters of a plain scalar; `stop` follows its last character. -/
def plainWord (f : Folding) (stop : Mark) : Nat → ScanM (Folding × Mark)
  | 0 => pure (f, stop)
  | fuel + 1 => do
    let s ← get
    if isBlankOrEnd (s.peek 0) || s.endsPlain then return (f, stop)
    let f := f.join
    let text ← read f.text
    plainWord { f with text := text } (← get).mark fuel

/-- Reads the runs and gaps of a plain scalar. -/
def plainBody (start : Mark) (indent : Int) (f : Folding) (stop : Mark) :
    Nat → ScanM (Folding × Mark)
  | 0 => pure (f, stop)
  | fuel + 1 => do
    let s ← get
    if s.atDocumentMarker || s.peek 0 == '#' then return (f, stop)
    let (f, stop) ← plainWord f stop s.remaining
    let c ← ahead 0
    if !(isBlank c || isBreak c) then return (f, stop)
    let f ← readGap true start indent f (← get).remaining
    let s ← get
    if s.flowLevel == 0 && (s.mark.column : Int) < indent then return (f, stop)
    plainBody start indent f stop fuel

/-- Scans a plain scalar. A simple key may follow one that ended after a line break. -/
def plainScalar : ScanM Token := do
  let s ← get
  let start := s.mark
  let (f, stop) ← plainBody start (s.indent + 1) {} start s.remaining
  if f.leadingBlanks then modify fun s => { s with keyAllowed := true }
  return ⟨.scalar f.text .plain, start, stop⟩

/-- The character an escape of one letter stands for in double quotes. -/
def simpleEscape (c : Char) : Option Char :=
  match c with
  | '0' => some '\x00'
  | 'a' => some '\x07'
  | 'b' => some '\x08'
  | 't' => some '\t'
  | '\t' => some '\t'
  | 'n' => some '\n'
  | 'v' => some '\x0B'
  | 'f' => some '\x0C'
  | 'r' => some '\r'
  | 'e' => some '\x1B'
  | ' ' => some ' '
  | '"' => some '"'
  | '\'' => some '\''
  | '\\' => some '\\'
  | 'N' => some '\u0085'
  | '_' => some '\u00A0'
  | 'L' => some '\u2028'
  | 'P' => some '\u2029'
  | _ => none

/-- The number of hexadecimal digits after an escape letter that takes a code. -/
def codeWidth (c : Char) : Nat :=
  if c == 'x' then 2 else if c == 'u' then 4 else if c == 'U' then 8 else 0

/-- Skips `n` characters. -/
def skipN : Nat → ScanM Unit
  | 0 => pure ()
  | n + 1 => do skip; skipN n

/-- Reads an escape sequence after its backslash and letter have been checked. -/
def readEscape (start : Mark) (f : Folding) : ScanM Folding := do
  let e ← ahead 1
  match simpleEscape e with
  | some ch =>
    skip
    skip
    return { f with text := f.text.push ch }
  | none =>
    let width := codeWidth e
    if width == 0 then
      scanFail "while parsing a quoted scalar" start "found unknown escape character"
    skip
    skip
    let s ← get
    let digits := (List.range width).map s.peek
    if !digits.all isHexChar then
      scanFail "while parsing a quoted scalar" start "did not find expected hexdecimal number"
    let value := digits.foldl (fun v d => v * 16 + hexDigitValue d) 0
    if (0xD800 ≤ value && value ≤ 0xDFFF) || value > 0x10FFFF then
      scanFail "while parsing a quoted scalar" start "found invalid Unicode character escape code"
    skipN width
    return { f with text := f.text.push (Char.ofNat value) }

/-- Reads one run of characters of a quoted scalar, up to a blank, a break, the closing quote
or an escaped line break; says whether it ended at an escaped line break. -/
def quotedWord (single : Bool) (start : Mark) (f : Folding) : Nat → ScanM (Folding × Bool)
  | 0 => pure (f, false)
  | fuel + 1 => do
    let s ← get
    let c := s.peek 0
    if isBlankOrEnd c then return (f, false)
    if single && c == '\'' && s.peek 1 == '\'' then
      skip
      skip
      quotedWord single start { f with text := f.text.push '\'' } fuel
    else if single && c == '\'' then return (f, false)
    else if !single && c == '"' then return (f, false)
    else if !single && c == '\\' && isBreak (s.peek 1) then
      skip
      skipLine
      return (f, true)
    else if !single && c == '\\' then
      let f ← readEscape start f
      quotedWord single start f fuel
    else
      let text ← read f.text
      quotedWord single start { f with text := text } fuel

/-- Reads the runs and gaps of a quoted scalar up to its closing quote. -/
def quotedBody (single : Bool) (start : Mark) (f : Folding) : Nat → ScanM Folding
  | 0 => pure f
  | fuel + 1 => do
    let s ← get
    if s.atDocumentMarker then
      scanFail "while scanning a quoted scalar" start "found unexpected document indicator"
    if isEnd (s.peek 0) then
      scanFail "while scanning a quoted scalar" start "found unexpected end of stream"
    let (f, escapedBreak) ← quotedWord single start f s.remaining
    let c ← ahead 0
    if (single && c == '\'') || (!single && c == '"') then return f
    let f ← readGap false start 0 { f with leadingBlanks := escapedBreak } (← get).remaining
    quotedBody single start f.join fuel

/-- Scans a single-quoted (`single`) or double-quoted scalar. -/
def flowScalar (single : Bool) : ScanM Token := do
  let start := (← get).mark
  skip
  let f ← quotedBody single start {} (← get).remaining
  skip
  let style := if single then ScalarStyle.singleQuoted else ScalarStyle.doubleQuoted
  return ⟨.scalar f.text style, start, (← get).mark⟩

/-- Reads indentation and empty lines before a line of a block scalar, and settles the
indentation if it is not yet known (`0`): the deepest indentation seen, at least one more than
the parent's and at least `1`. -/
def blockBreaks (start : Mark) (parent : Int) (indent : Int) (breaks : String) (stop : Mark)
    (deepest : Nat) : Nat → ScanM (Int × String × Mark)
  | 0 => pure (indent, breaks, stop)
  | fuel + 1 => do
    let s ← get
    skipWhile (fun s => (indent == 0 || (s.mark.column : Int) < indent) && s.peek 0 == ' ')
      s.remaining
    let s ← get
    let deepest := max deepest s.mark.column
    if (indent == 0 || (s.mark.column : Int) < indent) && s.peek 0 == '\t' then
      scanFail "while scanning a block scalar" start
        "found a tab character where an indentation space is expected"
    if !isBreak (s.peek 0) then
      let indent := if indent == 0 then max (max (deepest : Int) (parent + 1)) 1 else indent
      return (indent, breaks, stop)
    let breaks ← readLine breaks
    blockBreaks start parent indent breaks (← get).mark deepest fuel

/-- The lines of a block scalar. -/
structure BlockLines where
  text : String := ""
  leadingBreak : String := ""
  trailingBreaks : String := ""
  leadingBlank : Bool := false
  stop : Mark

/-- Reads the lines of a block scalar at indentation `indent`. -/
def blockBody (literal : Bool) (start : Mark) (parent : Int) (indent : Int) (b : BlockLines) :
    Nat → ScanM BlockLines
  | 0 => pure b
  | fuel + 1 => do
    let s ← get
    if !((s.mark.column : Int) == indent && !isEnd (s.peek 0)) then return b
    let trailingBlank := isBlank (s.peek 0)
    let text :=
      if !literal && !b.leadingBlank && !trailingBlank && b.leadingBreak.startsWith "\n" then
        if b.trailingBreaks.isEmpty then b.text.push ' ' else b.text
      else b.text ++ b.leadingBreak
    let text := text ++ b.trailingBreaks
    let leadingBlank := isBlank (s.peek 0)
    let text ← readWhile (fun s => !isBreakOrEnd (s.peek 0)) text s.remaining
    let leadingBreak ← readLine ""
    let (indent, trailing, stop) ← blockBreaks start parent indent "" b.stop 0 (← get).remaining
    blockBody literal start parent indent
      { text := text, leadingBreak := leadingBreak, trailingBreaks := trailing,
        leadingBlank := leadingBlank, stop := stop } fuel

/-- Reads the chomping and indentation indicators after `|` or `>`, in either order. -/
def blockHeader (start : Mark) : ScanM (Int × Nat) := do
  let c ← ahead 0
  if c == '+' || c == '-' then
    skip
    let d ← ahead 0
    if d.isDigit then
      if d == '0' then
        scanFail "while scanning a block scalar" start "found an indentation indicator equal to 0"
      skip
      return (if c == '+' then 1 else -1, d.toNat - '0'.toNat)
    return (if c == '+' then 1 else -1, 0)
  else if c.isDigit then
    if c == '0' then
      scanFail "while scanning a block scalar" start "found an indentation indicator equal to 0"
    skip
    let d ← ahead 0
    if d == '+' || d == '-' then
      skip
      return (if d == '+' then 1 else -1, c.toNat - '0'.toNat)
    return (0, c.toNat - '0'.toNat)
  else return (0, 0)

/-- Scans a literal (`literal`) or folded block scalar. -/
def blockScalar (literal : Bool) : ScanM Token := do
  let start := (← get).mark
  skip
  let (chomping, increment) ← blockHeader start
  skipBlanks
  if (← ahead 0) == '#' then skipToBreak
  if !isBreakOrEnd (← ahead 0) then
    scanFail "while scanning a block scalar" start "did not find expected comment or line break"
  if isBreak (← ahead 0) then skipLine
  let s ← get
  let parent := s.indent
  let indent : Int :=
    if increment > 0 then (if parent ≥ 0 then parent + increment else increment) else 0
  let (indent, trailing, stop) ← blockBreaks start parent indent "" s.mark 0 s.remaining
  let b ← blockBody literal start parent indent { trailingBreaks := trailing, stop := stop }
    (← get).remaining
  let text := if chomping != -1 then b.text ++ b.leadingBreak else b.text
  let text := if chomping == 1 then text ++ b.trailingBreaks else text
  let style := if literal then ScalarStyle.literal else ScalarStyle.folded
  return ⟨.scalar text style, start, b.stop⟩

end TurnRelay.Yaml
