import TurnRelay.Json.Write

/-!
# Reply bodies

The relay answers in the shape of the messages API: a reply message with its content blocks,
model, stop reason and (always zero) token usage. The same message, with no content yet, opens
every stream. The service descriptor is what the root path serves.

## Main definitions

* `ContentBlock`, `MessageResponse` and their JSON text.
* `ServiceDescriptor` and its JSON text.
-/

namespace TurnRelay.Api

open TurnRelay.Json

/-- A typed content block: its type and its text. -/
structure ContentBlock where
  blockType : String
  text : String
  deriving Inhabited, DecidableEq

/-- The JSON text of a content block. -/
def ContentBlock.json (b : ContentBlock) : ByteArray :=
  Writer.object [("type", Writer.str b.blockType), ("text", Writer.str b.text)]

/-- A reply message. Usage is not accounted, so both counters are always zero. -/
structure MessageResponse where
  id : String
  content : List ContentBlock
  model : String
  stopReason : Option String := none
  stopSequence : Option String := none
  deriving Inhabited

/-- The JSON text of a reply message, members in their fixed order. -/
def MessageResponse.json (r : MessageResponse) : ByteArray :=
  Writer.object [
    ("id", Writer.str r.id),
    ("type", Writer.str "message"),
    ("role", Writer.str "assistant"),
    ("content", Writer.array (r.content.map ContentBlock.json)),
    ("model", Writer.str r.model),
    ("stop_reason", Writer.optStr r.stopReason),
    ("stop_sequence", Writer.optStr r.stopSequence),
    ("usage", Writer.object [("input_tokens", Writer.int 0), ("output_tokens", Writer.int 0)])]

/-- What the root path tells about the service. -/
structure ServiceDescriptor where
  status : String
  service : String
  version : String
  format : String
  endpoints : List String

/-- The JSON text of the service descriptor. -/
def ServiceDescriptor.json (d : ServiceDescriptor) : ByteArray :=
  Writer.object [
    ("status", Writer.str d.status),
    ("service", Writer.str d.service),
    ("version", Writer.str d.version),
    ("format", Writer.str d.format),
    ("endpoints", Writer.strList (some d.endpoints))]

end TurnRelay.Api
