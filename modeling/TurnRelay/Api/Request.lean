import TurnRelay.Json.Decode
import TurnRelay.Text.Space

/-!
# Request bodies

A request to the messages route is read permissively: the body must be a JSON object, and
every member of the wrong kind falls back to its default (an empty model, no streaming, no
messages) instead of failing the request. The system text and each message's content keep the
client's raw JSON, and their text is worked out only when a prompt is built:

* content that is a string is that string; an array gives the texts of its text blocks, run
  together; anything else is its own JSON text, verbatim;
* system text that is a string is that string; an array gives the texts of its text blocks,
  one per line; anything else is no text.

A text block is an element that is an object whose `type` is the string `text` and whose `text`
is a string. Other elements are passed over.

## Main definitions

* `Content`, `SystemText`, `InboundRequest` and `InboundRequest.decode`.
* `Content.text`, `SystemText.text`, `InboundRequest.json`.
-/

namespace TurnRelay.Api

open TurnRelay.Json

/-- A message body, as the raw JSON the client sent; empty when absent. -/
structure Content where
  raw : ByteArray := ByteArray.empty
  deriving Inhabited

/-- The system text, as the raw JSON the client sent; empty when absent. -/
structure SystemText where
  raw : ByteArray := ByteArray.empty
  deriving Inhabited

/-- One message of the conversation. -/
structure ChatMessage where
  role : String := ""
  content : Content := {}
  deriving Inhabited

/-- A decoded request body. -/
structure InboundRequest where
  model : String := ""
  stream : Bool := false
  system : SystemText := {}
  messages : List ChatMessage := []
  deriving Inhabited

/-- Raw JSON as a value of its own: the text `null` when there is none. -/
def rawJson (raw : ByteArray) : ByteArray := if raw.size == 0 then Writer.null else raw

/-- Content holding a string, given as its bytes, which need not be UTF-8. -/
def Content.ofText (s : ByteArray) : Content := ⟨Json.quoteLossy s⟩

/-- System text holding a string, given as its bytes, which need not be UTF-8. -/
def SystemText.ofText (s : ByteArray) : SystemText := ⟨Json.quoteLossy s⟩

/-- The members of an array element that may make it a text block. -/
structure BlockHead where
  blockType : String := ""
  text : ByteArray := ByteArray.empty

/-- Reads an element's `type` and the raw bytes of its `text`. -/
def BlockHead.reader : BlockHead → Node → Decoder BlockHead :=
  record (TypeName.record [("Type", "string", "type"), ("Text", TypeName.rawText, "text")]) [
    ("type", fun b n => do pure { b with blockType := ← Json.text "string" b.blockType n }),
    ("text", fun b n => do pure { b with text := ← raw b.text n })]

/-- The text of one array element when it is a text block. -/
def blockText (src : ByteArray) (elem : Node) : Option String :=
  match Decoder.run src "" (BlockHead.reader {} elem) with
  | (b, none) =>
    if b.blockType == "text" then
      match Decoder.read b.text "" (Json.text "string" "") with
      | .ok s => some s
      | .error _ => none
    else none
  | (_, some _) => none

/-- The texts of the text blocks of a JSON array, in order; none when `raw` is not an array. -/
def blockTexts (raw : ByteArray) : Option (List String) :=
  match Decoder.read raw "" (list "[]json.RawMessage" (fun n => pure n) none) with
  | .ok elems => some ((elems.getD []).filterMap (blockText raw))
  | .error _ => none

/-- A JSON string's text, when `raw` is exactly one. -/
def stringText (raw : ByteArray) : Option String :=
  match Decoder.read raw "" (Json.text "string" "") with
  | .ok s => some s
  | .error _ => none

/-- The prompt text of a message body. The result is bytes: content that is not text comes
through as the client sent it, valid UTF-8 or not. -/
def Content.text (c : Content) : ByteArray :=
  if c.raw.size == 0 || c.raw == "null".toUTF8 then ByteArray.empty
  else
    let verbatim := c.raw
    if Utf8.byteAt c.raw 0 == 0x22 then
      match stringText c.raw with
      | some s => s.toUTF8
      | none => verbatim
    else if Utf8.byteAt c.raw 0 == 0x5B then
      match blockTexts c.raw with
      | some parts => (String.join parts).toUTF8
      | none => verbatim
    else verbatim

/-- The prompt text of the system text. -/
def SystemText.text (s : SystemText) : String :=
  if s.raw.size == 0 then ""
  else if Utf8.byteAt s.raw 0 == 0x22 then (stringText s.raw).getD ""
  else if Utf8.byteAt s.raw 0 == 0x5B then
    match blockTexts s.raw with
    | some parts => "\n".intercalate parts
    | none => ""
  else ""

/-- The raw members of a request body. -/
structure RequestParts where
  model : ByteArray := ByteArray.empty
  stream : ByteArray := ByteArray.empty
  system : ByteArray := ByteArray.empty
  messages : ByteArray := ByteArray.empty

/-- Reads a body's members without looking inside them. -/
def RequestParts.reader : RequestParts → Node → Decoder RequestParts :=
  record "" [
    ("model", fun p n => do pure { p with model := ← raw p.model n }),
    ("stream", fun p n => do pure { p with stream := ← raw p.stream n }),
    ("system", fun p n => do pure { p with system := ← raw p.system n }),
    ("messages", fun p n => do pure { p with messages := ← raw p.messages n })]

/-- Reads a message's role and content. -/
def ChatMessage.reader : ChatMessage → Node → Decoder ChatMessage :=
  record "types.Message" [
    ("role", fun m n => do pure { m with role := ← Json.text "string" m.role n }),
    ("content", fun m n => do pure { m with content := ⟨← raw m.content.raw n⟩ })]

/-- Reads a message's content alone. -/
def looseContent : Content → Node → Decoder Content :=
  record "" [("content", fun c n => do pure ⟨← raw c.raw n⟩)]

/-- One element of the `messages` array: a message, or, when its members have the wrong kinds,
a message with no role and whatever content it has. -/
def readMessage (elem : ByteArray) : ChatMessage :=
  match Decoder.read elem "" (ChatMessage.reader {}) with
  | .ok m => m
  | .error _ =>
    match Decoder.read elem "" (looseContent {}) with
    | .ok c => { content := c }
    | .error _ => {}

/-- Why a body is not a request. -/
inductive RequestError where
  | notObject
  | malformed (e : ReadError)
  deriving Inhabited

/-- The wording of a rejected body. -/
def RequestError.message : RequestError → String
  | .notObject => "request body must be a JSON object"
  | .malformed e => "decode request body: " ++ e.message

/-- Reads a request body. Only a body that is not one JSON object (after white space is
trimmed) is rejected. -/
def InboundRequest.decode (body : ByteArray) : Except RequestError InboundRequest :=
  let trimmed := Utf8.trimSpace body
  if trimmed.size == 0 || Utf8.byteAt trimmed 0 != 0x7B then .error .notObject
  else
    match Decoder.read trimmed "" (RequestParts.reader {}) with
    | .error e => .error (.malformed e)
    | .ok parts =>
      let model := match Decoder.read parts.model "" (Json.text "string" "") with
        | .ok s => s
        | .error _ => ""
      let stream := match Decoder.read parts.stream "" (flag false) with
        | .ok b => b
        | .error _ => false
      let elems := match Decoder.read parts.messages "" (list "[]json.RawMessage" (raw ByteArray.empty) none) with
        | .ok (some xs) => xs
        | _ => []
      .ok { model := model, stream := stream, system := ⟨parts.system⟩,
            messages := elems.map readMessage }

/-- The JSON text of a message: its content's raw JSON, compacted. -/
def ChatMessage.json (m : ChatMessage) : ByteArray :=
  Writer.object [("role", Writer.str m.role), ("content", compact (rawJson m.content.raw))]

/-- The JSON text of a request; `messages` is `null` when there are none. -/
def InboundRequest.json (r : InboundRequest) : ByteArray :=
  Writer.object [
    ("model", Writer.str r.model),
    ("stream", Writer.bool r.stream),
    ("system", compact (rawJson r.system.raw)),
    ("messages", if r.messages.isEmpty then Writer.null else Writer.array (r.messages.map ChatMessage.json))]

end TurnRelay.Api
