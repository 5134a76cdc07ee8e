import TurnRelay.Yaml.Event
import TurnRelay.Yaml.Token.Stream

/-!
# Parsing tokens into events

The parser is a state machine over the grammar of YAML documents: each state names a place in
the grammar, and one step reads tokens from that place to the next event. The state to return
to when a node is done waits on a stack, and so does the start of each open collection, which a
problem inside it is told against.

Only version `1.1` of `%YAML` is accepted. Each document starts with the default tag handles,
`!` and `!!` (for `tag:yaml.org,2002:`); a `%TAG` directive may add others, but not name the same
handle twice.

## Main definitions

* `ParseState`, `Parser`, `ParseM`.
* `Parser.ofInput`, `nextEvent`.
-/

namespace TurnRelay.Yaml

/-- A place in the grammar of a stream. -/
inductive ParseState where
  | streamStart
  | implicitDocumentStart
  | documentStart
  | documentContent
  | documentEnd
  | blockNode
  | blockSequenceFirstEntry
  | blockSequenceEntry
  | indentlessSequenceEntry
  | blockMappingFirstKey
  | blockMappingKey
  | blockMappingValue
  | flowSequenceFirstEntry
  | flowSequenceEntry
  | flowSequenceEntryMappingKey
  | flowSequenceEntryMappingValue
  | flowSequenceEntryMappingEnd
  | flowMappingFirstKey
  | flowMappingKey
  | flowMappingValue
  | flowMappingEmptyValue
  | finished
  deriving Inhabited, DecidableEq, Repr

/-- The parser's state: the scanner, where it is, and what it returns to. -/
structure Parser where
  scanner : Scanner
  state : ParseState := .streamStart
  states : List ParseState := []
  marks : List Mark := []
  /-- The tag handles of the current document and their prefixes. -/
  handles : List (String × String) := []
  deriving Inhabited

/-- Parsing: a step that changes the parser or finds a problem. -/
abbrev ParseM := StateT Parser (Except Problem)

/-- The parser at the start of a stream. -/
def Parser.ofInput (input : Input) : Parser := { scanner := Scanner.ofInput input }

/-- Runs a scanning step on the parser's scanner. -/
def scan {α : Type} (m : ScanM α) : ParseM α := fun p =>
  match m p.scanner with
  | .ok (a, sc) => .ok (a, { p with scanner := sc })
  | .error e => .error e

/-- The next token. -/
def peek : ParseM Token := scan peekToken

/-- Hands on the next token. -/
def advanceToken : ParseM Unit := scan skipToken

/-- Fails with a problem in the grammar. -/
def parseFail {α : Type} (context : String) (contextMark : Mark) (problem : String)
    (problemMark : Mark) : ParseM α :=
  throw { stage := .parser, context := context, contextMark := contextMark, problem := problem,
          problemMark := problemMark }

/-- Returns to the state on top of the stack. -/
def popState : ParseM Unit := modify fun p =>
  match p.states with
  | s :: rest => { p with state := s, states := rest }
  | [] => { p with state := .finished }

/-- Saves a state to return to. -/
def pushState (s : ParseState) : ParseM Unit := modify fun p => { p with states := s :: p.states }

/-- Moves to a state. -/
def goTo (s : ParseState) : ParseM Unit := modify fun p => { p with state := s }

/-- Forgets the start of the innermost collection, and gives it. -/
def popMark : ParseM Mark := do
  let p ← get
  match p.marks with
  | m :: rest =>
    set { p with marks := rest }
    return m
  | [] => return {}

/-- Remembers the start of a collection at the next token, and passes that token. -/
def openCollection : ParseM Unit := do
  let t ← peek
  modify fun p => { p with marks := t.start :: p.marks }
  advanceToken

/-- The default tag handles. -/
def defaultHandles : List (String × String) := [("!", "!"), ("!!", "tag:yaml.org,2002:")]

/-- Adds a tag handle; a handle already there is refused unless `allowSame`. -/
def addHandle (handle pre : String) (allowSame : Bool) (mark : Mark) : ParseM Unit := do
  let p ← get
  if (p.handles.lookup handle).isSome then
    if allowSame then return
    parseFail "" {} "found duplicate %TAG directive" mark
  set { p with handles := p.handles ++ [(handle, pre)] }

/-- Reads the directives before a document, then adds the default tag handles. -/
def directives (seenVersion : Bool) : Nat → ParseM Unit
  | 0 => pure ()
  | fuel + 1 => do
    let t ← peek
    match t.kind with
    | .versionDirective major minor =>
      if seenVersion then parseFail "" {} "found duplicate %YAML directive" t.start
      if major != 1 || minor != 1 then parseFail "" {} "found incompatible YAML document" t.start
      advanceToken
      directives true fuel
    | .tagDirective handle pre =>
      addHandle handle pre false t.start
      advanceToken
      directives seenVersion fuel
    | _ =>
      for (h, pre) in defaultHandles do addHandle h pre true t.start

/-- A bound on the tokens still to come. -/
def tokenBound : ParseM Nat := do
  let p ← get
  return p.scanner.remaining + p.scanner.queue.length + 8

/-- Passes the `...` markers before a document. -/
def skipDocumentEnds : Nat → ParseM Token
  | 0 => peek
  | fuel + 1 => do
    let t ← peek
    if t.kind == .documentEnd then
      advanceToken
      skipDocumentEnds fuel
    else return t

/-- Whether a token starts a document or ends the stream. -/
def TokenKind.opensDocument : TokenKind → Bool
  | .versionDirective _ _ | .tagDirective _ _ | .documentStart | .streamEnd => true
  | _ => false

/-- The start of a document (or the end of the stream). -/
def documentStart (implicit : Bool) : ParseM Event := do
  let t ← if implicit then peek else skipDocumentEnds (← tokenBound)
  if implicit && !t.kind.opensDocument then
    directives false (← tokenBound)
    pushState .documentEnd
    goTo .blockNode
    return ⟨.documentStart true, t.start, t.stop⟩
  else if t.kind != .streamEnd then
    directives false (← tokenBound)
    let t' ← peek
    if t'.kind != .documentStart then
      parseFail "" {} "did not find expected <document start>" t'.start
    pushState .documentEnd
    goTo .documentContent
    advanceToken
    return ⟨.documentStart false, t.start, t'.stop⟩
  else
    goTo .finished
    advanceToken
    return ⟨.streamEnd, t.start, t.stop⟩

/-- The end of a document. -/
def documentEnd : ParseM Event := do
  let t ← peek
  let explicit := t.kind == .documentEnd
  if explicit then advanceToken
  modify fun p => { p with handles := [], state := .documentStart }
  return ⟨.documentEnd (!explicit), t.start, if explicit then t.stop else t.start⟩

/-- The tag a node's tag token names, through the document's handles. -/
def expandTag (handle suffix : String) (start tagMark : Mark) : ParseM String := do
  if handle.isEmpty then return suffix
  match (← get).handles.lookup handle with
  | some pre =>
    if (pre ++ suffix).isEmpty then
      parseFail "while parsing a node" start "found undefined tag handle" tagMark
    return pre ++ suffix
  | none => parseFail "while parsing a node" start "found undefined tag handle" tagMark

/-- A node's properties: anchor, tag (handle and suffix, with the tag's mark), and the span
they cover. -/
structure Properties where
  anchor : Option String := none
  tag : Option (String × String × Mark) := none
  start : Mark
  stop : Mark

/-- Reads the anchor and tag before a node, in either order. -/
def properties : ParseM (Properties × Token) := do
  let t ← peek
  match t.kind with
  | .anchor name =>
    advanceToken
    let t2 ← peek
    match t2.kind with
    | .tag h sfx =>
      advanceToken
      return ({ anchor := some name, tag := some (h, sfx, t2.start), start := t.start,
                stop := t2.stop }, ← peek)
    | _ => return ({ anchor := some name, start := t.start, stop := t.stop }, t2)
  | .tag h sfx =>
    advanceToken
    let t2 ← peek
    match t2.kind with
    | .anchor name =>
      advanceToken
      return ({ anchor := some name, tag := some (h, sfx, t.start), start := t.start,
                stop := t2.stop }, ← peek)
    | _ => return ({ tag := some (h, sfx, t.start), start := t.start, stop := t.stop }, t2)
  | _ => return ({ start := t.start, stop := t.start }, t)

/-- A node, in block context (`block`) or flow context; `indentless` allows a sequence whose
entries are not indented under a mapping key. -/
def parseNode (block indentless : Bool) : ParseM Event := do
  let t ← peek
  if let .alias name := t.kind then
    popState
    advanceToken
    return ⟨.alias name, t.start, t.stop⟩
  let (props, t) ← properties
  let tag ← match props.tag with
    | some (h, sfx, m) => expandTag h sfx props.start m
    | none => pure ""
  let anchor := props.anchor
  if indentless && t.kind == .blockEntry then
    goTo .indentlessSequenceEntry
    return ⟨.sequenceStart anchor tag false, props.start, t.stop⟩
  match t.kind with
  | .scalar text style =>
    popState
    advanceToken
    return ⟨.scalar anchor tag text style, props.start, t.stop⟩
  | .flowSequenceStart =>
    goTo .flowSequenceFirstEntry
    return ⟨.sequenceStart anchor tag true, props.start, t.stop⟩
  | .flowMappingStart =>
    goTo .flowMappingFirstKey
    return ⟨.mappingStart anchor tag true, props.start, t.stop⟩
  | .blockSequenceStart =>
    if block then
      goTo .blockSequenceFirstEntry
      return ⟨.sequenceStart anchor tag false, props.start, t.stop⟩
    else parseNodeRest block anchor tag props t
  | .blockMappingStart =>
    if block then
      goTo .blockMappingFirstKey
      return ⟨.mappingStart anchor tag false, props.start, t.stop⟩
    else parseNodeRest block anchor tag props t
  | _ => parseNodeRest block anchor tag props t
where
  /-- A node with properties and no content is an empty scalar; without either, there is no
  node here. -/
  parseNodeRest (block : Bool) (anchor : Option String) (tag : String) (props : Properties)
      (t : Token) : ParseM Event := do
    if anchor.isSome || !tag.isEmpty then
      popState
      return ⟨.scalar anchor tag "" .plain, props.start, props.stop⟩
    parseFail (if block then "while parsing a block node" else "while parsing a flow node")
      props.start "did not find expected node content" t.start

/-- An entry of a block sequence, or its end. -/
def blockSequenceEntry (first : Bool) : ParseM Event := do
  if first then openCollection
  let t ← peek
  match t.kind with
  | .blockEntry =>
    advanceToken
    let t2 ← peek
    if t2.kind != .blockEntry && t2.kind != .blockEnd then
      pushState .blockSequenceEntry
      parseNode true false
    else
      goTo .blockSequenceEntry
      return .empty t.stop
  | .blockEnd =>
    popState
    let _ ← popMark
    advanceToken
    return ⟨.sequenceEnd, t.start, t.stop⟩
  | _ =>
    let m ← popMark
    parseFail "while parsing a block collection" m "did not find expected '-' indicator" t.start

/-- An entry of a sequence under a mapping key at the key's indentation, or its end. -/
def indentlessSequenceEntry : ParseM Event := do
  let t ← peek
  if t.kind == .blockEntry then
    advanceToken
    let t2 ← peek
    if t2.kind != .blockEntry && t2.kind != .key && t2.kind != .value && t2.kind != .blockEnd then
      pushState .indentlessSequenceEntry
      parseNode true false
    else
      goTo .indentlessSequenceEntry
      return .empty t.stop
  else
    popState
    return ⟨.sequenceEnd, t.start, t.start⟩

/-- A key of a block mapping, or its end. -/
def blockMappingKey (first : Bool) : ParseM Event := do
  if first then openCollection
  let t ← peek
  match t.kind with
  | .key =>
    advanceToken
    let t2 ← peek
    if t2.kind != .key && t2.kind != .value && t2.kind != .blockEnd then
      pushState .blockMappingValue
      parseNode true true
    else
      goTo .blockMappingValue
      return .empty t.stop
  | .blockEnd =>
    popState
    let _ ← popMark
    advanceToken
    return ⟨.mappingEnd, t.start, t.stop⟩
  | _ =>
    let m ← popMark
    parseFail "while parsing a block mapping" m "did not find expected key" t.start

/-- A value of a block mapping, empty when left out. -/
def blockMappingValue : ParseM Event := do
  let t ← peek
  if t.kind == .value then
    advanceToken
    let t2 ← peek
    if t2.kind != .key && t2.kind != .value && t2.kind != .blockEnd then
      pushState .blockMappingKey
      parseNode true true
    else
      goTo .blockMappingKey
      return .empty t.stop
  else
    goTo .blockMappingKey
    return .empty t.start

/-- An entry of a flow sequence (a node, or a one-pair mapping after `?`), or its end. -/
def flowSequenceEntry (first : Bool) : ParseM Event := do
  if first then openCollection
  let t ← peek
  if t.kind != .flowSequenceEnd then
    let t ← if first then pure t
      else if t.kind == .flowEntry then do advanceToken; peek
      else do
        let m ← popMark
        parseFail "while parsing a flow sequence" m "did not find expected ',' or ']'" t.start
    if t.kind == .key then
      goTo .flowSequenceEntryMappingKey
      advanceToken
      return ⟨.mappingStart none "" true, t.start, t.stop⟩
    else if t.kind != .flowSequenceEnd then
      pushState .flowSequenceEntry
      parseNode false false
    else flowSequenceClose t
  else flowSequenceClose t
where
  /-- The end of a flow sequence. -/
  flowSequenceClose (t : Token) : ParseM Event := do
    popState
    let _ ← popMark
    advanceToken
    return ⟨.sequenceEnd, t.start, t.stop⟩

/-- The key of a one-pair mapping in a flow sequence. -/
def flowSequenceEntryMappingKey : ParseM Event := do
  let t ← peek
  if t.kind != .value && t.kind != .flowEntry && t.kind != .flowSequenceEnd then
    pushState .flowSequenceEntryMappingValue
    parseNode false false
  else
    advanceToken
    goTo .flowSequenceEntryMappingValue
    return .empty t.stop

/-- The value of a one-pair mapping in a flow sequence. -/
def flowSequenceEntryMappingValue : ParseM Event := do
  let t ← peek
  if t.kind == .value then
    advanceToken
    let t2 ← peek
    if t2.kind != .flowEntry && t2.kind != .flowSequenceEnd then
      pushState .flowSequenceEntryMappingEnd
      parseNode false false
    else
      goTo .flowSequenceEntryMappingEnd
      return .empty t2.start
  else
    goTo .flowSequenceEntryMappingEnd
    return .empty t.start

/-- The end of a one-pair mapping in a flow sequence. -/
def flowSequenceEntryMappingEnd : ParseM Event := do
  let t ← peek
  goTo .flowSequenceEntry
  return ⟨.mappingEnd, t.start, t.start⟩

/-- A key of a flow mapping, or its end. -/
def flowMappingKey (first : Bool) : ParseM Event := do
  if first then openCollection
  let t ← peek
  if t.kind != .flowMappingEnd then
    let t ← if first then pure t
      else if t.kind == .flowEntry then do advanceToken; peek
      else do
        let m ← popMark
        parseFail "while parsing a flow mapping" m "did not find expected ',' or '\x7d'" t.start
    if t.kind == .key then
      advanceToken
      let t2 ← peek
      if t2.kind != .value && t2.kind != .flowEntry && t2.kind != .flowMappingEnd then
        pushState .flowMappingValue
        parseNode false false
      else
        goTo .flowMappingValue
        return .empty t2.start
    else if t.kind != .flowMappingEnd then
      pushState .flowMappingEmptyValue
      parseNode false false
    else flowMappingClose t
  else flowMappingClose t
where
  /-- The end of a flow mapping. -/
  flowMappingClose (t : Token) : ParseM Event := do
    popState
    let _ ← popMark
    advanceToken
    return ⟨.mappingEnd, t.start, t.stop⟩

/-- A value of a flow mapping; with `empty`, the value left out after a key without `:`. -/
def flowMappingValue (empty : Bool) : ParseM Event := do
  let t ← peek
  if empty then
    goTo .flowMappingKey
    return .empty t.start
  if t.kind == .value then
    advanceToken
    let t2 ← peek
    if t2.kind != .flowEntry && t2.kind != .flowMappingEnd then
      pushState .flowMappingKey
      parseNode false false
    else
      goTo .flowMappingKey
      return .empty t2.start
  else
    goTo .flowMappingKey
    return .empty t.start

/-- The start of the stream. -/
def streamStart : ParseM Event := do
  let t ← peek
  if t.kind != .streamStart then
    parseFail "" {} "did not find expected <stream-start>" t.start
  goTo .implicitDocumentStart
  advanceToken
  return ⟨.streamStart, t.start, t.stop⟩

/-- The next event; none after the end of the stream. -/
def nextEvent : ParseM (Option Event) := do
  let p ← get
  if p.scanner.ended then return none
  match p.state with
  | .streamStart => streamStart
  | .implicitDocumentStart => documentStart true
  | .documentStart => documentStart false
  | .documentContent =>
    let t ← peek
    if t.kind.opensDocument || t.kind == .documentEnd then
      popState
      return some (.empty t.start)
    parseNode true false
  | .documentEnd => documentEnd
  | .blockNode => parseNode true false
  | .blockSequenceFirstEntry => blockSequenceEntry true
  | .blockSequenceEntry => blockSequenceEntry false
  | .indentlessSequenceEntry => indentlessSequenceEntry
  | .blockMappingFirstKey => blockMappingKey true
  | .blockMappingKey => blockMappingKey false
  | .blockMappingValue => blockMappingValue
  | .flowSequenceFirstEntry => flowSequenceEntry true
  | .flowSequenceEntry => flowSequenceEntry false
  | .flowSequenceEntryMappingKey => flowSequenceEntryMappingKey
  | .flowSequenceEntryMappingValue => flowSequenceEntryMappingValue
  | .flowSequenceEntryMappingEnd => flowSequenceEntryMappingEnd
  | .flowMappingFirstKey => flowMappingKey true
  | .flowMappingKey => flowMappingKey false
  | .flowMappingValue => flowMappingValue false
  | .flowMappingEmptyValue => flowMappingValue true
  | .finished => return none

end TurnRelay.Yaml
