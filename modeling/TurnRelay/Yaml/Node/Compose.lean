import TurnRelay.Yaml.Node
import TurnRelay.Yaml.Event.Parse
import TurnRelay.Yaml.Resolve

/-!
# Composing the first document

The events of the stream's first document are built into nodes. A node's tag is its explicit
tag, or else: `!!str` for a quoted or block scalar, `!!merge` for a plain `<<`, `!!seq` and
`!!map` for collections, and the resolved type of any other plain scalar. An anchor names its
node from where the node starts, so a collection's own entries may name it; a later anchor of
the same name hides the earlier one from then on. An alias must name an anchor seen before it.

Only the first document is read; a stream with none gives no document.

## Main definitions

* `Composer`, `ComposeM`.
* `readDocument`.
-/

namespace TurnRelay.Yaml

/-- The composer's state: the parser, the event looked at but not taken, and the anchors. -/
structure Composer where
  parser : Parser
  pending : Option Event := none
  anchors : List (String × Nat) := []
  anchored : Array Node := #[]
  aliases : Nat := 0
  deriving Inhabited

/-- Composing: a step that changes the composer or fails. -/
abbrev ComposeM := StateT Composer (Except DecodeError)

/-- Runs a parsing step on the composer's parser. -/
def parseStep {α : Type} (m : ParseM α) : ComposeM α := fun c =>
  match m c.parser with
  | .ok (a, p) => .ok (a, { c with parser := p })
  | .error e => .error (.problem e)

/-- The next event, without taking it. -/
def peekEvent : ComposeM Event := do
  match (← get).pending with
  | some e => return e
  | none =>
    match ← parseStep nextEvent with
    | some e =>
      modify fun c => { c with pending := some e }
      return e
    | none => throw (.failure "attempted to go past the end of stream; corrupted value?")

/-- Takes the next event. -/
def takeEvent : ComposeM Event := do
  let e ← peekEvent
  modify fun c => { c with pending := none }
  return e

/-- The tag of a scalar node. -/
def scalarTag (tag text : String) (style : ScalarStyle) : String :=
  if tag != "" && tag != "!" then shortTag tag
  else if style.isIndicated then strTag
  else if text == "<<" then mergeTag
  else
    match resolve "" text with
    | .ok (t, _) => t
    | .error _ => strTag

/-- The tag of a collection node. -/
def collectionTag (tag default : String) : String :=
  if tag != "" && tag != "!" then shortTag tag else default

/-- Makes room for an anchored node, and names it. -/
def reserve : Option String → ComposeM (Option Nat)
  | none => pure none
  | some name => do
    let c ← get
    let slot := c.anchored.size
    set { c with anchored := c.anchored.push default, anchors := (name, slot) :: c.anchors }
    return some slot

/-- Puts an anchored node in its place. -/
def fill (slot : Option Nat) (n : Node) : ComposeM Unit :=
  match slot with
  | none => pure ()
  | some i => modify fun c => { c with anchored := c.anchored.setIfInBounds i n }

mutual

/-- Composes the node that starts at the next event. -/
def composeNode : Nat → ComposeM Node
  | 0 => throw (.failure "document nested too deeply")
  | fuel + 1 => do
    let e ← peekEvent
    let line := e.start.line + 1
    match e.kind with
    | .scalar anchor tag text style =>
      let node := Node.scalar (scalarTag tag text style) text style line
      let slot ← reserve anchor
      fill slot node
      let _ ← takeEvent
      return node
    | .alias name =>
      let c ← get
      match c.anchors.lookup name with
      | some target =>
        set { c with aliases := c.aliases + 1 }
        let _ ← takeEvent
        return .alias c.aliases name target line
      | none => throw (.failure ("unknown anchor '" ++ name ++ "' referenced"))
    | .sequenceStart anchor tag _ =>
      let slot ← reserve anchor
      let _ ← takeEvent
      let items ← composeItems fuel []
      let _ ← takeEvent
      let node := Node.sequence (collectionTag tag seqTag) items line
      fill slot node
      return node
    | .mappingStart anchor tag _ =>
      let slot ← reserve anchor
      let _ ← takeEvent
      let entries ← composeEntries fuel []
      let _ ← takeEvent
      let node := Node.mapping (collectionTag tag mapTag) entries line
      fill slot node
      return node
    | _ => throw (.failure "attempted to parse unknown event")

/-- Composes the items of a sequence up to its end. -/
def composeItems : Nat → List Node → ComposeM (List Node)
  | 0, acc => pure acc.reverse
  | fuel + 1, acc => do
    if (← peekEvent).kind == .sequenceEnd then return acc.reverse
    let n ← composeNode fuel
    composeItems fuel (n :: acc)

/-- Composes the entries of a mapping up to its end. -/
def composeEntries : Nat → List (Node × Node) → ComposeM (List (Node × Node))
  | 0, acc => pure acc.reverse
  | fuel + 1, acc => do
    if (← peekEvent).kind == .mappingEnd then return acc.reverse
    let k ← composeNode fuel
    let v ← composeNode fuel
    composeEntries fuel ((k, v) :: acc)

end

/-- Composes the first document of a stream; none when the stream has no document. -/
def composeStream (fuel : Nat) : ComposeM (Option Document) := do
  let _ ← takeEvent
  match (← peekEvent).kind with
  | .streamEnd => return none
  | .documentStart _ =>
    let _ ← takeEvent
    let root ← composeNode fuel
    let _ ← takeEvent
    return some ⟨root, (← get).anchored⟩
  | _ => do
    let root ← composeNode fuel
    return some ⟨root, (← get).anchored⟩

/-- Reads the first document of a stream's bytes; no bytes read as a single line break. -/
def readDocument (bytes : ByteArray) : Except DecodeError (Option Document) :=
  let bytes := if bytes.isEmpty then "\n".toUTF8 else bytes
  let input := Input.ofBytes bytes
  match (composeStream (16 * (input.chars.size + 16))).run { parser := Parser.ofInput input } with
  | .ok (d, _) => .ok d
  | .error e => .error e

end TurnRelay.Yaml
