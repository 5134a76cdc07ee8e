import TurnRelay.Yaml.Token.Property

/-!
# The token stream

Tokens are found one at a time, but some are only known later: a scalar turns out to be a
simple key when a `:` follows it, and then a `KEY` token goes before it, and a
`BLOCK-MAPPING-START` before that if it opens a mapping. So the scanner keeps a queue, and hands
on its first token only when at least three are queued and the first is not a simple key that
may still be completed.

Block collections are opened when an entry is found deeper than the current indentation and
closed (`BLOCK-END`) at every token on a line indented less. Inside flow collections indentation
does not count, and only flow indicators open and close.

A simple key may begin where `keyAllowed` holds: at the start of a line in block context, after
`[`, `{`, `,`, `-`, `?` and `:`. It must end on the same line, within 1024 characters. A key at
the indentation of a block mapping is required: if it cannot be completed, the text is refused.

## Main definitions

* `fetchNext`: finds the next token (or tokens).
* `peekToken`, `skipToken`: the parser's view of the queue.
-/

namespace TurnRelay.Yaml

/-- Adds a token at the end of the queue. -/
def emit (t : Token) : ScanM Unit := modify fun s => { s with queue := s.queue ++ [t] }

/-- Inserts a token at a position in the queue. -/
def emitAt (pos : Nat) (t : Token) : ScanM Unit := modify fun s =>
  { s with queue := s.queue.take pos ++ t :: s.queue.drop pos }

/-- Inserts a token before the token numbered `n`, counting every token handed on so far; when
that token has already been handed on, the new one goes at the end of the queue. -/
def emitBefore (n : Nat) (t : Token) : ScanM Unit := do
  let s ← get
  if n < s.parsed then emit t else emitAt (n - s.parsed) t

/-- The flow level of the innermost possible simple key. -/
def Scanner.topLevel (s : Scanner) : Nat := s.keys.size - 1

/-- Forgets which flow level the simple key at token `n` belongs to. -/
def Scanner.forgetKey (s : Scanner) (n : Nat) : Scanner :=
  { s with keyLevels := s.keyLevels.filter (fun e => e.1 != n) }

/-- The problem of a required simple key that cannot be completed. -/
def keyProblem (s : Scanner) (k : SimpleKey) : Problem :=
  { stage := .scanner, context := "while scanning a simple key", contextMark := k.mark,
    problem := "could not find expected ':'", problemMark := s.mark }

/-- Whether the simple key at flow level `i` may still be completed. One that is on an earlier
line or more than 1024 characters back stops being possible; if it was required, the text is
refused. -/
def keyValid (i : Nat) : ScanM Bool := do
  let s ← get
  let k := s.keys.getD i {}
  if !k.possible then return false
  if k.mark.line < s.mark.line || k.mark.index + 1024 < s.mark.index then
    if k.required then throw (keyProblem s k)
    set { s with keys := s.keys.modify i fun k => { k with possible := false } }
    return false
  return true

/-- Drops the possible simple key of the current flow level; refused if it was required. -/
def removeKey : ScanM Unit := do
  let s ← get
  let i := s.topLevel
  let k := s.keys.getD i {}
  if k.possible then
    if k.required then throw (keyProblem s k)
    set ({ s with keys := s.keys.modify i fun k => { k with possible := false } }.forgetKey
      k.tokenNumber)

/-- Remembers that a simple key may begin here, at the next token. -/
def saveKey : ScanM Unit := do
  let s ← get
  if s.keyAllowed then
    let key : SimpleKey :=
      { possible := true, required := s.flowLevel == 0 && s.indent == (s.mark.column : Int),
        tokenNumber := s.parsed + s.queue.length, mark := s.mark }
    removeKey
    modify fun s =>
      let i := s.topLevel
      let s := s.forgetKey key.tokenNumber
      { s with keys := s.keys.modify i fun _ => key, keyLevels := (key.tokenNumber, i) :: s.keyLevels }

/-- The deepest nesting of flow collections, and of block collections. -/
def maxDepth : Nat := 10000

/-- Opens a flow level. Its simple-key slot starts empty but numbered as the token that opens
the level, so closing a level in which no simple key was ever saved forgets the key saved at
its opening bracket. -/
def increaseFlow : ScanM Unit := do
  let s ← get
  set { s with keys := s.keys.push { mark := s.mark, tokenNumber := s.parsed + s.queue.length },
               flowLevel := s.flowLevel + 1 }
  if s.flowLevel + 1 > maxDepth then
    scanFail "while increasing flow level" s.mark "exceeded max depth of 10000"

/-- Closes a flow level. -/
def decreaseFlow : ScanM Unit := modify fun s =>
  if s.flowLevel > 0 then
    let k := s.keys.getD s.topLevel {}
    { (s.forgetKey k.tokenNumber) with flowLevel := s.flowLevel - 1, keys := s.keys.pop }
  else s

/-- In block context, opens a collection at `column` if it is deeper than the current
indentation: the token `kind` goes at token number `number` if given, or at the end. -/
def rollIndent (column : Int) (number : Option Nat) (kind : TokenKind) (mark : Mark) :
    ScanM Unit := do
  let s ← get
  if s.flowLevel == 0 && s.indent < column then
    set { s with indents := s.indent :: s.indents, indent := column }
    if s.indents.length + 1 > maxDepth then
      scanFail "while increasing indent level" (s.keys.getD s.topLevel {}).mark
        "exceeded max depth of 10000"
    let t : Token := ⟨kind, mark, mark⟩
    match number with
    | some n => emitBefore n t
    | none => emit t

/-- In block context, closes every collection deeper than `column`. -/
def unrollIndent (column : Int) (mark : Mark) : Nat → ScanM Unit
  | 0 => pure ()
  | fuel + 1 => do
    let s ← get
    if s.flowLevel == 0 && s.indent > column then
      let place : Mark := { mark with index := mark.index - 1 }
      emit ⟨.blockEnd, place, place⟩
      match s.indents with
      | i :: rest => set { s with indent := i, indents := rest, queue := (← get).queue }
      | [] => set { s with indent := -1, queue := (← get).queue }
      unrollIndent column mark fuel

/-- Closes every open block collection. -/
def unrollAll (mark : Mark) : ScanM Unit := do
  unrollIndent (-1) mark ((← get).indents.length + 1)

/-- The first token of the stream. -/
def fetchStreamStart : ScanM Unit := do
  modify fun s =>
    { s with indent := -1, keys := s.keys.push {}, keyLevels := [], keyAllowed := true,
             started := true }
  let m := (← get).mark
  emit ⟨.streamStart, m, m⟩

/-- The last token of the stream; the end counts as the start of a new line. -/
def fetchStreamEnd : ScanM Unit := do
  modify fun s =>
    if s.mark.column != 0 then { s with mark := { s.mark with column := 0, line := s.mark.line + 1 } }
    else s
  unrollAll (← get).mark
  removeKey
  modify fun s => { s with keyAllowed := false }
  let m := (← get).mark
  emit ⟨.streamEnd, m, m⟩

/-- A directive line. -/
def fetchDirective : ScanM Unit := do
  unrollAll (← get).mark
  removeKey
  modify fun s => { s with keyAllowed := false }
  emit (← directiveToken)

/-- A document marker, `---` or `...`. -/
def fetchDocumentIndicator (kind : TokenKind) : ScanM Unit := do
  unrollAll (← get).mark
  removeKey
  modify fun s => { s with keyAllowed := false }
  let start := (← get).mark
  skipN 3
  emit ⟨kind, start, (← get).mark⟩

/-- A one-character token. -/
def fetchIndicator (kind : TokenKind) : ScanM Unit := do
  let start := (← get).mark
  skip
  emit ⟨kind, start, (← get).mark⟩

/-- `[` or `{`. -/
def fetchFlowStart (kind : TokenKind) : ScanM Unit := do
  saveKey
  increaseFlow
  modify fun s => { s with keyAllowed := true }
  fetchIndicator kind

/-- `]` or `}`. -/
def fetchFlowEnd (kind : TokenKind) : ScanM Unit := do
  removeKey
  decreaseFlow
  modify fun s => { s with keyAllowed := false }
  fetchIndicator kind

/-- `,` in a flow collection. -/
def fetchFlowEntry : ScanM Unit := do
  removeKey
  modify fun s => { s with keyAllowed := true }
  fetchIndicator .flowEntry

/-- `-` before an entry of a block sequence. -/
def fetchBlockEntry : ScanM Unit := do
  let s ← get
  if s.flowLevel == 0 then
    if !s.keyAllowed then
      scanFail "" s.mark "block sequence entries are not allowed in this context"
    rollIndent s.mark.column none .blockSequenceStart s.mark
  removeKey
  modify fun s => { s with keyAllowed := true }
  fetchIndicator .blockEntry

/-- `?` before a complex key. -/
def fetchKey : ScanM Unit := do
  let s ← get
  if s.flowLevel == 0 then
    if !s.keyAllowed then
      scanFail "" s.mark "mapping keys are not allowed in this context"
    rollIndent s.mark.column none .blockMappingStart s.mark
  removeKey
  modify fun s => { s with keyAllowed := s.flowLevel == 0 }
  fetchIndicator .key

/-- `:` after a key: a pending simple key becomes a key here. -/
def fetchValue : ScanM Unit := do
  let i := (← get).topLevel
  if ← keyValid i then
    let s ← get
    let k := s.keys.getD i {}
    emitBefore k.tokenNumber ⟨.key, k.mark, k.mark⟩
    rollIndent k.mark.column (some k.tokenNumber) .blockMappingStart k.mark
    modify fun s =>
      { (s.forgetKey k.tokenNumber) with
        keys := s.keys.modify i fun k => { k with possible := false }, keyAllowed := false }
  else
    let s ← get
    if s.flowLevel == 0 then
      if !s.keyAllowed then
        scanFail "" s.mark "mapping values are not allowed in this context"
      rollIndent s.mark.column none .blockMappingStart s.mark
    modify fun s => { s with keyAllowed := s.flowLevel == 0 }
  fetchIndicator .value

/-- A token that may be a simple key and after which none may begin. -/
def fetchKeyable (scan : ScanM Token) : ScanM Unit := do
  saveKey
  modify fun s => { s with keyAllowed := false }
  emit (← scan)

/-- A block scalar. -/
def fetchBlockScalar (literal : Bool) : ScanM Unit := do
  removeKey
  modify fun s => { s with keyAllowed := true }
  emit (← blockScalar literal)

/-- Where a line comment would start: the offset of the first character after at most 511
blanks, if it is `#`. -/
def Scanner.commentAhead (s : Scanner) : Option Nat :=
  match (List.range 512).find? (fun k => !isBlank (s.peek k)) with
  | some k => if s.peek k == '#' then some k else none
  | none => none

/-- Skips a comment that follows a token on its line. -/
def lineComment : ScanM Unit := do
  let s ← get
  if s.newlines > 0 then return
  if (s.queue.getLast?.map (·.kind)) == some .blockEntry then return
  match s.commentAhead with
  | some k =>
    skipN k
    skipToBreak
  | none => pure ()

/-- Where the next comment starts after a line break at the current position, when only blanks
and line breaks come between, within 511 characters. -/
def Scanner.nextComment (s : Scanner) : Option Nat :=
  let stop := (List.range 511).find? fun j => !isBlank (s.peek (j + 1)) && !isBreak (s.peek (j + 1))
  match stop with
  | some j => if s.peek (j + 1) == '#' then some (j + 1) else none
  | none => none

/-- Moves to the character `n` places ahead, passing line breaks as line breaks. -/
def advance : Nat → ScanM Unit
  | 0 => pure ()
  | n + 1 => do
    let s ← get
    if s.peek 0 == '\r' && s.peek 1 == '\n' then
      skipLine
      advance (n - 1)
    else if isBreak (s.peek 0) then
      skipLine
      advance n
    else
      skip
      advance n

/-- Skips a comment and the comments on the lines after it that have nothing else. -/
def skipComments : Nat → ScanM Unit
  | 0 => pure ()
  | fuel + 1 => do
    skipToBreak
    match (← get).nextComment with
    | some k =>
      advance k
      skipComments fuel
    | none => pure ()

/-- Skips blanks, comments and line breaks up to the next token. Tabs are skipped only inside
flow collections or where no simple key may begin. -/
def scanToNextToken : Nat → ScanM Unit
  | 0 => pure ()
  | fuel + 1 => do
    let s ← get
    if s.mark.column == 0 && s.bomAtBufferStart then skip
    need 1
    skipWhile (fun s => s.peek 0 == ' ' || ((s.flowLevel > 0 || !s.keyAllowed) && s.peek 0 == '\t'))
      (← get).remaining
    if (← ahead 0) == '#' then skipComments (← get).remaining
    if isBreak (← ahead 0) then
      need 2
      skipLine
      modify fun s => if s.flowLevel == 0 then { s with keyAllowed := true } else s
      scanToNextToken fuel

/-- Whether a plain scalar may start with `c`, followed by `next`. -/
def Scanner.startsPlain (s : Scanner) (c next : Char) : Bool :=
  !(isBlankOrEnd c || "-?:,[]\x7b\x7d#&*!|>'\"%@".contains c || c.toNat == 0x60) ||
    (c == '-' && !isBlank next) ||
    (s.flowLevel == 0 && (c == '?' || c == ':') && !isBlankOrEnd next)

/-- Finds the token that starts with `c`, after a line comment if one follows it. -/
def fetchContent (c : Char) : ScanM Unit := do
  let s ← get
  let next := s.peek 1
  if c == '[' then fetchFlowStart .flowSequenceStart
  else if c == '\x7b' then fetchFlowStart .flowMappingStart
  else if c == ']' then fetchFlowEnd .flowSequenceEnd
  else if c == '\x7d' then fetchFlowEnd .flowMappingEnd
  else if c == ',' then fetchFlowEntry
  else if c == '-' && isBlankOrEnd next then fetchBlockEntry
  else if c == '?' && (s.flowLevel > 0 || isBlankOrEnd next) then fetchKey
  else if c == ':' && (s.flowLevel > 0 || isBlankOrEnd next) then fetchValue
  else if c == '*' then fetchKeyable (anchorToken true)
  else if c == '&' then fetchKeyable (anchorToken false)
  else if c == '!' then fetchKeyable tagToken
  else if c == '|' && s.flowLevel == 0 then fetchBlockScalar true
  else if c == '>' && s.flowLevel == 0 then fetchBlockScalar false
  else if c == '\'' then fetchKeyable (flowScalar true)
  else if c == '"' then fetchKeyable (flowScalar false)
  else if s.startsPlain c next then fetchKeyable plainScalar
  else scanFail "while scanning for the next token" s.mark "found character that cannot start any token"
  lineComment

/-- Finds the next token (sometimes with the tokens it implies before it). -/
def fetchNext : ScanM Unit := do
  need 1
  let s ← get
  if !s.started then fetchStreamStart
  else
    let scanMark := s.mark
    scanToNextToken s.remaining
    let s ← get
    unrollIndent s.mark.column scanMark (s.indents.length + 1)
    need 4
    let s ← get
    let c := s.peek 0
    if isEnd c then fetchStreamEnd
    else if s.mark.column == 0 && c == '%' then fetchDirective
    else if s.atDocumentMarker && c == '-' then fetchDocumentIndicator .documentStart
    else if s.atDocumentMarker then fetchDocumentIndicator .documentEnd
    else fetchContent c

/-- Fills the queue until its first token may be handed on. -/
def fetchMore : Nat → ScanM Unit
  | 0 => modify fun s => { s with available := true }
  | fuel + 1 => do
    let s ← get
    if s.queue.length > 2 then
      match s.keyLevels.lookup s.parsed with
      | none =>
        modify fun s => { s with available := true }
        return
      | some i =>
        if !(← keyValid i) then
          modify fun s => { s with available := true }
          return
    fetchNext
    fetchMore fuel

/-- The next token, without handing it on. -/
def peekToken : ScanM Token := do
  if !(← get).available then fetchMore ((← get).remaining + 8)
  let s ← get
  match s.queue with
  | t :: _ => return t
  | [] => return ⟨.streamEnd, s.mark, s.mark⟩

/-- Hands on the first queued token. -/
def skipToken : ScanM Unit := modify fun s =>
  match s.queue with
  | t :: rest =>
    { s with queue := rest, available := false, parsed := s.parsed + 1,
             ended := t.kind == .streamEnd }
  | [] => s

end TurnRelay.Yaml
