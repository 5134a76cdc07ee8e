import TurnRelay.Json.Decode

/-!
# Stream events

While a turn runs, the assistant reports its reply as incremental events of six kinds: a message
opens, a content block opens, a block grows by a delta, a block closes, the message's stop reason
and token usage arrive, and the message closes. Every event keeps the bytes it arrived as, so that
it can be passed on unchanged.

`Event.parse` reads an event: first its common members (`type`, `index`, `content_block.type`,
`delta`, `usage`), then, for the two kinds that carry a `delta`, that member. An event of a kind
outside the six is no event at all (`none`).

## Main definitions

* `Event` and `Event.parse`.
* `EventError.message`: the wording of a malformed event, by which part was malformed.
-/

namespace TurnRelay.Assistant

open TurnRelay.Json

/-- The kinds of stream event. -/
inductive EventKind where
  | messageStart
  | blockStart
  | blockDelta
  | blockStop
  | messageDelta
  | messageStop
  deriving DecidableEq, Repr, Inhabited

/-- The wire name of an event kind. -/
def EventKind.name : EventKind → String
  | .messageStart => "message_start"
  | .blockStart => "content_block_start"
  | .blockDelta => "content_block_delta"
  | .blockStop => "content_block_stop"
  | .messageDelta => "message_delta"
  | .messageStop => "message_stop"

/-- Every event kind. -/
def EventKind.all : List EventKind :=
  [.messageStart, .blockStart, .blockDelta, .blockStop, .messageDelta, .messageStop]

/-- The kind with wire name `s`. -/
def EventKind.ofName? (s : String) : Option EventKind := EventKind.all.find? (·.name == s)

/-- One stream event, with the bytes it arrived as. -/
inductive Event where
  | messageStart (raw : ByteArray)
  | blockStart (raw : ByteArray) (index : Int) (blockType : String)
  | blockDelta (raw : ByteArray) (index : Int) (deltaType : String) (text : String)
  | blockStop (raw : ByteArray) (index : Int)
  | messageDelta (raw : ByteArray) (stopReason : Option String) (stopSequence : Option String)
      (usage : Option Dict)
  | messageStop (raw : ByteArray)
  deriving Inhabited

/-- The kind of an event. -/
def Event.kind : Event → EventKind
  | .messageStart .. => .messageStart
  | .blockStart .. => .blockStart
  | .blockDelta .. => .blockDelta
  | .blockStop .. => .blockStop
  | .messageDelta .. => .messageDelta
  | .messageStop .. => .messageStop

/-- The bytes an event arrived as. -/
def Event.raw : Event → ByteArray
  | .messageStart r | .blockStart r .. | .blockDelta r .. | .blockStop r .. | .messageDelta r ..
  | .messageStop r => r

/-- Why an event could not be read, by the part that was malformed. -/
inductive EventError where
  /-- The event's common members. -/
  | head (e : ReadError)
  /-- The `delta` of a block delta. -/
  | blockDelta (e : ReadError)
  /-- The `delta` of a message delta. -/
  | messageDelta (e : ReadError)
  deriving Inhabited

/-- The wording of a malformed event. -/
def EventError.message : EventError → String
  | .head e => "decode stream event: " ++ e.message
  | .blockDelta e => "decode content_block_delta: " ++ e.message
  | .messageDelta e => "decode message_delta: " ++ e.message

/-- The common members every event is read for. `delta` keeps its raw bytes, absent or not. -/
structure EventHead where
  kind : String := ""
  index : Int := 0
  blockType : String := ""
  delta : Option ByteArray := none
  usage : Option Dict := none

/-- How messages name the record holding a content block's type. -/
def blockTypeRecord : String := TypeName.record [("Type", "string", "type")]

/-- How messages name the record of an event's common members. -/
def EventHead.typeName : String :=
  TypeName.record [("Type", "upstream.EventKind", "type"), ("Index", "int", "index"),
    ("ContentBlock", blockTypeRecord, "content_block"), ("Delta", TypeName.rawText, "delta"),
    ("Usage", TypeName.dictionary, "usage")]

/-- The one field of the record holding a content block's type. -/
def blockTypeFields : List (String × FieldReader String) :=
  [("type", fun cur m => text "string" cur m)]

/-- The fields of an event's common members, by member name. -/
def EventHead.fields : List (String × FieldReader EventHead) := [
  ("type", fun h n => do pure { h with kind := ← text "upstream.EventKind" h.kind n }),
  ("index", fun h n => do pure { h with index := ← word "int" h.index n }),
  ("content_block", fun h n => do
    let t ← record blockTypeRecord blockTypeFields h.blockType n
    pure { h with blockType := t }),
  ("delta", fun h n => do pure { h with delta := some (← raw ByteArray.empty n) }),
  ("usage", fun h n => do pure { h with usage := ← dict h.usage n })]

/-- Reads an event's common members. -/
def EventHead.reader : EventHead → Node → Decoder EventHead :=
  record EventHead.typeName EventHead.fields

/-- The members of a block delta's `delta`. -/
structure TextDelta where
  deltaType : String := ""
  text : String := ""

/-- How messages name the record of a block delta's `delta`. -/
def TextDelta.typeName : String :=
  TypeName.record [("Type", "string", "type"), ("Text", "string", "text")]

/-- The fields of a block delta's `delta`, by member name. -/
def TextDelta.fields : List (String × FieldReader TextDelta) := [
  ("type", fun d n => do pure { d with deltaType := ← Json.text "string" d.deltaType n }),
  ("text", fun d n => do pure { d with text := ← Json.text "string" d.text n })]

/-- Reads a block delta's `delta`. -/
def TextDelta.reader : TextDelta → Node → Decoder TextDelta :=
  record TextDelta.typeName TextDelta.fields

/-- The members of a message delta's `delta`. -/
structure StopDelta where
  stopReason : Option String := none
  stopSequence : Option String := none

/-- How messages name the record of a message delta's `delta`. -/
def StopDelta.typeName : String :=
  TypeName.record [("StopReason", "*string", "stop_reason"),
    ("StopSequence", "*string", "stop_sequence")]

/-- The fields of a message delta's `delta`, by member name. -/
def StopDelta.fields : List (String × FieldReader StopDelta) := [
  ("stop_reason", fun d n => do pure { d with stopReason := ← optText d.stopReason n }),
  ("stop_sequence", fun d n => do pure { d with stopSequence := ← optText d.stopSequence n })]

/-- Reads a message delta's `delta`. -/
def StopDelta.reader : StopDelta → Node → Decoder StopDelta :=
  record StopDelta.typeName StopDelta.fields

/-- Reads one event from its bytes; `none` for a kind outside the six. -/
def Event.parse (src : ByteArray) : Except EventError (Option Event) := do
  let head ← (Decoder.read src "" (EventHead.reader {})).mapError EventError.head
  match EventKind.ofName? head.kind with
  | none => pure none
  | some .messageStart => pure (some (.messageStart src))
  | some .blockStart => pure (some (.blockStart src head.index head.blockType))
  | some .blockDelta =>
    let d ← match head.delta with
      | some bytes => (Decoder.read bytes "" (TextDelta.reader {})).mapError EventError.blockDelta
      | none => pure {}
    pure (some (.blockDelta src head.index d.deltaType d.text))
  | some .blockStop => pure (some (.blockStop src head.index))
  | some .messageDelta =>
    let d ← match head.delta with
      | some bytes => (Decoder.read bytes "" (StopDelta.reader {})).mapError EventError.messageDelta
      | none => pure {}
    pure (some (.messageDelta src d.stopReason d.stopSequence head.usage))
  | some .messageStop => pure (some (.messageStop src))

end TurnRelay.Assistant
