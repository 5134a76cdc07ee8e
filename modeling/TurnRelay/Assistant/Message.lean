import TurnRelay.Assistant.Event

/-!
# Output lines of the assistant

The assistant writes one JSON object per line. Five types of line are understood: a stream event,
a complete assistant message, a user message (tool results), a system notice and the result that
ends the turn. A line of another type is no message (`none`), so newer assistants do not break
the relay.

`Message.parseLine` reads a line in two steps: first the members common to all types (`type`,
`session_id`, `parent_tool_use_id`, `event`, `message`), then the part its type needs. A line that
is not JSON, or whose part has members of the wrong kind, is a `ProtocolError`, which keeps the
line (cut to its first 200 bytes) for the log.

## Main definitions

* `Message`, `Block`, `Notice`, `Outcome` and `Message.parseLine`.
* `Message.text` joins the text blocks of an assistant message.
-/

namespace TurnRelay.Assistant

open TurnRelay.Json

/-- One block of an assistant message's content. -/
structure Block where
  blockType : String := ""
  text : String := ""
  name : String := ""
  id : String := ""
  deriving Inhabited

/-- A system notice: session start, hook output and the like. -/
structure Notice where
  subtype : String := ""
  sessionId : String := ""
  model : String := ""
  cwd : String := ""
  deriving Inhabited

/-- The result line that ends a turn. -/
structure Outcome where
  subtype : String := ""
  sessionId : String := ""
  result : String := ""
  isError : Bool := false
  numTurns : Int := 0
  durationMs : Int := 0
  totalCostUsd : Float := 0
  deriving Inhabited

/-- One understood line of the assistant's output. A stream event's event is absent when the
line carried none. -/
inductive Message where
  | streamEvent (parentToolUseId : Option String) (sessionId : String) (event : Option Event)
  | assistant (parentToolUseId : Option String) (sessionId : String) (model : String)
      (content : Option (List Block))
  | user (parentToolUseId : Option String) (sessionId : String)
  | system (notice : Notice)
  | result (outcome : Outcome)
  deriving Inhabited

/-- The text of an assistant message: its text blocks' texts joined; empty for other lines. -/
def Message.text : Message → String
  | .assistant _ _ _ content =>
    String.join ((content.getD []).filterMap fun b => if b.blockType == "text" then some b.text
      else none)
  | _ => ""

/-- Why a line could not be read. -/
inductive LineCause where
  | read (e : ReadError)
  | event (e : EventError)
  /-- Any other reason, in its own words. -/
  | other (message : String)
  deriving Inhabited

/-- The wording of a line's cause. -/
def LineCause.message : LineCause → String
  | .read e => e.message
  | .event e => e.message
  | .other m => m

/-- A line the relay could not read: the cause and the line, cut to 200 bytes. -/
structure ProtocolError where
  cause : LineCause
  line : ByteArray
  deriving Inhabited

/-- The wording of a protocol error. -/
def ProtocolError.message (e : ProtocolError) : String := "protocol error: " ++ e.cause.message

/-- A line as a protocol error keeps it: its first `n` bytes followed by `...` when longer. -/
def truncateLine (line : ByteArray) (n : Nat) : ByteArray :=
  if line.size ≤ n then line else line.extract 0 n ++ "...".toUTF8

/-- The members common to every line. -/
structure LineHead where
  lineType : String := ""
  sessionId : String := ""
  parentToolUseId : Option String := none
  event : ByteArray := ByteArray.empty
  message : ByteArray := ByteArray.empty

/-- How messages name the record of a line's common members. -/
def LineHead.typeName : String :=
  TypeName.record [("Type", "upstream.MessageType", "type"), ("SessionID", "string", "session_id"),
    ("ParentToolUseID", "*string", "parent_tool_use_id"), ("Event", TypeName.rawText, "event"),
    ("Message", TypeName.rawText, "message")]

/-- The fields of a line's common members, by member name. -/
def LineHead.fields : List (String × FieldReader LineHead) := [
  ("type", fun h n => do pure { h with lineType := ← text "upstream.MessageType" h.lineType n }),
  ("session_id", fun h n => do pure { h with sessionId := ← text "string" h.sessionId n }),
  ("parent_tool_use_id", fun h n => do
    pure { h with parentToolUseId := ← optText h.parentToolUseId n }),
  ("event", fun h n => do pure { h with event := ← raw h.event n }),
  ("message", fun h n => do pure { h with message := ← raw h.message n })]

/-- Reads a line's common members. -/
def LineHead.reader : LineHead → Node → Decoder LineHead := record LineHead.typeName LineHead.fields

/-- The members of an assistant line's `message`. -/
structure AssistantBody where
  model : String := ""
  content : ByteArray := ByteArray.empty

/-- How messages name the record of an assistant line's `message`. -/
def AssistantBody.typeName : String :=
  TypeName.record [("Model", "string", "model"), ("Content", TypeName.rawText, "content")]

/-- The fields of an assistant line's `message`, by member name. -/
def AssistantBody.fields : List (String × FieldReader AssistantBody) := [
  ("model", fun b n => do pure { b with model := ← text "string" b.model n }),
  ("content", fun b n => do pure { b with content := ← raw b.content n })]

/-- Reads an assistant line's `message`. -/
def AssistantBody.reader : AssistantBody → Node → Decoder AssistantBody :=
  record AssistantBody.typeName AssistantBody.fields

/-- The fields of a content block, by member name. -/
def Block.fields : List (String × FieldReader Block) := [
  ("type", fun b n => do pure { b with blockType := ← Json.text "string" b.blockType n }),
  ("text", fun b n => do pure { b with text := ← Json.text "string" b.text n }),
  ("name", fun b n => do pure { b with name := ← Json.text "string" b.name n }),
  ("id", fun b n => do pure { b with id := ← Json.text "string" b.id n })]

/-- Reads one content block. -/
def Block.reader : Block → Node → Decoder Block := record "upstream.ContentBlock" Block.fields

/-- An assistant message's content: a string is one text block, an array is read block by block;
anything unreadable is no content. -/
def parseContent (raw : ByteArray) : Option (List Block) :=
  if raw.size == 0 then none
  else if Utf8.byteAt raw 0 == 0x22 then
    match Decoder.read raw "" (text "string" "") with
    | .ok s => some [{ blockType := "text", text := s }]
    | .error _ => none
  else
    match Decoder.read raw "" (list "[]upstream.ContentBlock" (Block.reader {}) none) with
    | .ok blocks => blocks
    | .error _ => none

/-- The fields of a system line, by member name. -/
def Notice.fields : List (String × FieldReader Notice) := [
  ("subtype", fun m n => do pure { m with subtype := ← text "string" m.subtype n }),
  ("session_id", fun m n => do pure { m with sessionId := ← text "string" m.sessionId n }),
  ("model", fun m n => do pure { m with model := ← text "string" m.model n }),
  ("cwd", fun m n => do pure { m with cwd := ← text "string" m.cwd n })]

/-- Reads a system line. -/
def Notice.reader : Notice → Node → Decoder Notice := record "upstream.SystemMessage" Notice.fields

/-- The fields of a result line, by member name. -/
def Outcome.fields : List (String × FieldReader Outcome) := [
  ("subtype", fun o n => do pure { o with subtype := ← text "string" o.subtype n }),
  ("session_id", fun o n => do pure { o with sessionId := ← text "string" o.sessionId n }),
  ("result", fun o n => do pure { o with result := ← text "string" o.result n }),
  ("is_error", fun o n => do pure { o with isError := ← flag o.isError n }),
  ("num_turns", fun o n => do pure { o with numTurns := ← word "int" o.numTurns n }),
  ("duration_ms", fun o n => do pure { o with durationMs := ← word "int64" o.durationMs n }),
  ("total_cost_usd", fun o n => do pure { o with totalCostUsd := ← real o.totalCostUsd n })]

/-- Reads a result line. -/
def Outcome.reader : Outcome → Node → Decoder Outcome :=
  record "upstream.ResultMessage" Outcome.fields

/-- Reads one line of the assistant's output; `none` for a line of a type it does not know. -/
def Message.parseLine (line : ByteArray) : Except ProtocolError (Option Message) :=
  let fail (c : LineCause) : ProtocolError := ⟨c, truncateLine line 200⟩
  match Decoder.read line "" (LineHead.reader {}) with
  | .error e => .error (fail (.read e))
  | .ok head =>
    if head.lineType == "stream_event" then
      match Event.parse head.event with
      | .error e => .error (fail (.event e))
      | .ok none => .ok none
      | .ok (some ev) => .ok (some (.streamEvent head.parentToolUseId head.sessionId (some ev)))
    else if head.lineType == "assistant" then
      let body : Except ReadError AssistantBody :=
        if head.message.size > 0 then Decoder.read head.message "" (AssistantBody.reader {})
        else .ok {}
      match body with
      | .error e => .error (fail (.read e))
      | .ok b =>
        .ok (some (.assistant head.parentToolUseId head.sessionId b.model (parseContent b.content)))
    else if head.lineType == "user" then
      .ok (some (.user head.parentToolUseId head.sessionId))
    else if head.lineType == "system" then
      match Decoder.read line "SystemMessage" (Notice.reader {}) with
      | .error e => .error (fail (.read e))
      | .ok m => .ok (some (.system m))
    else if head.lineType == "result" then
      match Decoder.read line "ResultMessage" (Outcome.reader {}) with
      | .error e => .error (fail (.read e))
      | .ok o => .ok (some (.result o))
    else .ok none

end TurnRelay.Assistant
