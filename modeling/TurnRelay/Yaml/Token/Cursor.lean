import TurnRelay.Yaml.Token
import TurnRelay.Yaml.Input

/-!
# The scanner's state

Scanning walks the characters of the text once. The scanner keeps its position, the tokens
found but not yet handed on, the indentation levels of the open block collections, the depth of
flow collections, and for each flow level the place where a simple key (a key without `?`) may
have begun: whether such a key is still possible there is only known once a `:` follows it or
cannot follow it any more.

Past the last character the scanner sees NUL characters, which cannot occur in the text itself.
The characters come from the reader in fills (`Input`); the scanner asks for them before it
looks, as `need` does, and that is when a problem in a later fill is met. The reader keeps the
characters not yet scanned at the front of its buffer, and a byte-order mark at the front of
that buffer lets the scanner pass over the first character of every line it starts on.

## Main definitions

* Character classes: `isBlank`, `isBreak`, `isBlankOrEnd`, `isWordChar`, `isHexChar`.
* `SimpleKey`, `Scanner`, `ScanM`, and the moves `skip`, `skipLine`, `read`, `readLine`.
* `Scanner.ofInput`: the scanner at the start of a stream; `need`: the reader's fills.
-/

namespace TurnRelay.Yaml

/-- A space or a tab. -/
def isBlank (c : Char) : Bool := c == ' ' || c == '\t'

/-- A line break: carriage return, line feed, next line, line or paragraph separator. -/
def isBreak (c : Char) : Bool :=
  c == '\r' || c == '\n' || c == '\u0085' || c == '\u2028' || c == '\u2029'

/-- The character seen past the end of the text. -/
def isEnd (c : Char) : Bool := c == '\x00'

/-- A line break or the end. -/
def isBreakOrEnd (c : Char) : Bool := isBreak c || isEnd c

/-- A blank, a line break or the end. -/
def isBlankOrEnd (c : Char) : Bool := isBlank c || isBreakOrEnd c

/-- A character of a name: an ASCII letter or digit, `_` or `-`. -/
def isWordChar (c : Char) : Bool := c.isAlphanum || c == '_' || c == '-'

/-- An ASCII hexadecimal digit. -/
def isHexChar (c : Char) : Bool :=
  c.isDigit || ('a' ≤ c && c ≤ 'f') || ('A' ≤ c && c ≤ 'F')

/-- The value of a hexadecimal digit. -/
def hexDigitValue (c : Char) : Nat :=
  if c.isDigit then c.toNat - '0'.toNat
  else if 'a' ≤ c && c ≤ 'f' then c.toNat - 'a'.toNat + 10
  else c.toNat - 'A'.toNat + 10

/-- Where a simple key may have begun. -/
structure SimpleKey where
  possible : Bool := false
  /-- A key at the indentation of a block mapping must be a key. -/
  required : Bool := false
  /-- The number of the token that would be the key, counted from the start of the stream. -/
  tokenNumber : Nat := 0
  mark : Mark := {}
  deriving Inhabited

/-- The scanner's state. -/
structure Scanner where
  input : Array Char
  mark : Mark := {}
  /-- Line breaks passed since the last character that is not blank. -/
  newlines : Nat := 0
  started : Bool := false
  /-- Whether the end-of-stream token has been handed on. -/
  ended : Bool := false
  flowLevel : Nat := 0
  /-- Tokens found but not handed on, first one first. -/
  queue : List Token := []
  /-- Tokens handed on so far. -/
  parsed : Nat := 0
  /-- Whether the first queued token may be handed on as it is. -/
  available : Bool := false
  indent : Int := -1
  indents : List Int := []
  /-- Whether a simple key may begin here. -/
  keyAllowed : Bool := false
  /-- One possible simple key per flow level, the innermost last. -/
  keys : Array SimpleKey := #[]
  /-- The flow level of each possible simple key, by its token number. -/
  keyLevels : List (Nat × Nat) := []
  /-- How many characters the reader has decoded so far. -/
  decoded : Nat := 0
  /-- The character counts the reader's later fills reach. -/
  pendingFills : List Nat := []
  /-- The problem of the fill after them, if it has one. -/
  readFailure : Option String := none
  /-- The offset of the first character in the reader's buffer. -/
  bufferStart : Nat := 0
  /-- The NUL characters the reader has put after the end. -/
  padding : Nat := 0
  deriving Inhabited

/-- Scanning: a step that changes the scanner or finds a problem. -/
abbrev ScanM := StateT Scanner (Except Problem)

namespace Scanner

/-- The character `k` places ahead; NUL past the end. -/
def peek (s : Scanner) (k : Nat) : Char := s.input.getD (s.mark.index + k) '\x00'

/-- The characters not yet read, and one more: an upper bound on the steps of any loop that
reads a character per step. -/
def remaining (s : Scanner) : Nat := s.input.size + 1 - s.mark.index

/-- The scanner at the start of a stream, its first fill read. -/
def ofInput (input : Input) : Scanner :=
  { input := input.chars, decoded := input.fills.headD 0, pendingFills := input.fills.tail,
    readFailure := input.failure,
    padding := if input.endedEarly && input.failure.isNone then 1 else 0 }

/-- Whether the reader's buffer starts with a byte-order mark. -/
def bomAtBufferStart (s : Scanner) : Bool := s.input.getD s.bufferStart '\x00' == '\uFEFF'

end Scanner

/-- The character `k` places ahead. -/
def ahead (k : Nat) : ScanM Char := do return (← get).peek k

/-- A problem of the reader. -/
def readerProblem (problem : String) : Problem := { stage := .reader, problem := problem }

/-- The reader's fills until `n` characters from the current one are there, at most `fuel` of
them: the fills that are left, then the end, which adds one NUL; a failing fill stops. -/
def fillUntil (n : Nat) : Nat → ScanM Unit
  | 0 => pure ()
  | fuel + 1 => do
    let s ← get
    if s.decoded + s.padding ≥ s.mark.index + n then return
    match s.pendingFills with
    | a :: rest =>
      set { s with decoded := a, pendingFills := rest }
      fillUntil n fuel
    | [] =>
      match s.readFailure with
      | some p => throw (readerProblem p)
      | none => set { s with padding := s.padding + 1 }

/-- Makes sure `n` characters from the current one are decoded, as the reader does before the
scanner looks at them: when fewer are, the characters not yet scanned move to the front of the
buffer and fills follow. -/
def need (n : Nat) : ScanM Unit := do
  let s ← get
  if s.decoded + s.padding ≥ s.mark.index + n then return
  set { s with bufferStart := s.mark.index }
  fillUntil n (s.pendingFills.length + 1)

/-- Fails with a token-level problem found at the current position; near the end of what the
reader delivered, a failing fill after it is met first. -/
def scanFail {α : Type} (context : String) (contextMark : Mark) (problem : String) : ScanM α := do
  let s ← get
  if let some p := s.readFailure then
    if s.mark.index + 4 > s.input.size then throw (readerProblem p)
  throw { stage := .scanner, context := context, contextMark := contextMark, problem := problem,
          problemMark := s.mark }

/-- Moves past one character that is not a line break. -/
def skip : ScanM Unit := modify fun s =>
  { s with newlines := if isBlank (s.peek 0) then s.newlines else 0,
           mark := { s.mark with index := s.mark.index + 1, column := s.mark.column + 1 } }

/-- Moves past one line break; a carriage return and line feed count as one. -/
def skipLine : ScanM Unit := modify fun s =>
  if s.peek 0 == '\r' && s.peek 1 == '\n' then
    { s with mark := ⟨s.mark.index + 2, s.mark.line + 1, 0⟩, newlines := s.newlines + 1 }
  else if isBreak (s.peek 0) then
    { s with mark := ⟨s.mark.index + 1, s.mark.line + 1, 0⟩, newlines := s.newlines + 1 }
  else s

/-- Moves past one character, adding it to `acc`. -/
def read (acc : String) : ScanM String := do
  let c ← ahead 0
  skip
  return acc.push c

/-- Moves past one line break, adding it to `acc`: a line feed for a carriage return, a line
feed or a next line, the separator itself for a line or paragraph separator. -/
def readLine (acc : String) : ScanM String := do
  let c ← ahead 0
  if c == '\r' || c == '\n' || c == '\u0085' then
    skipLine
    return acc.push '\n'
  else if c == '\u2028' || c == '\u2029' then
    skipLine
    return acc.push c
  else return acc

/-- Skips characters while `p` holds of the next one, at most `fuel` of them. -/
def skipWhile (p : Scanner → Bool) : Nat → ScanM Unit
  | 0 => pure ()
  | fuel + 1 => do
    if p (← get) then
      skip
      skipWhile p fuel

/-- Reads characters into `acc` while `p` holds of the next one, at most `fuel` of them. -/
def readWhile (p : Scanner → Bool) (acc : String) : Nat → ScanM String
  | 0 => pure acc
  | fuel + 1 => do
    if p (← get) then
      let acc ← read acc
      readWhile p acc fuel
    else return acc

/-- Skips blanks. -/
def skipBlanks : ScanM Unit := do skipWhile (fun s => isBlank (s.peek 0)) (← get).remaining

/-- Skips to the end of the line, leaving the line break. -/
def skipToBreak : ScanM Unit := do skipWhile (fun s => !isBreakOrEnd (s.peek 0)) (← get).remaining

/-- Whether a document marker, `---` or `...` followed by a blank or the end, starts here at
the beginning of a line. -/
def Scanner.atDocumentMarker (s : Scanner) : Bool :=
  s.mark.column == 0 &&
    ((s.peek 0 == '-' && s.peek 1 == '-' && s.peek 2 == '-') ||
     (s.peek 0 == '.' && s.peek 1 == '.' && s.peek 2 == '.')) &&
    isBlankOrEnd (s.peek 3)

end TurnRelay.Yaml
