import Mathlib
import TurnRelay.Proofs.Assistant.LineReading
import TurnRelay.Proofs.Api.RequestBody

/-!
# The text of an assistant message

An assistant line carries its message as a `message` object whose `content` is kept as raw bytes
and read afterwards: a string is one text block, and an array is read as a list of blocks in one
go. That reading is all or nothing. When every element of the array fits a block (an object
whose type, text, name and id members are strings or `null`, or `null` itself), the message
holds every block and its text is that of its text blocks in order; when a single element does
not fit, such as a bare string or a block whose id is a number, the message has no content and
no text at all (`assistant_text_needs_every_block`). The prompt side reads a request's blocks
one element at a time instead.

The content's bytes are those of a member inside the line, read again on their own; the reading
is followed through `Node.ReadsAlone` and `Node.shift`, which keep what each block holds.

## Main definitions

* `bodyFits`, `blockFits`: whether a value fits an assistant line's `message`, and a block.
* `Block.ofNode`, `elementText?`: the block an element gives, and the text it adds.

## Main results

* `parseContent_array`, `parseContent_string`: content read from bytes that are an array or a
  string.
* `parseLine_assistant_object`: an assistant line whose common members and message fit.
* `assistant_text_needs_every_block`: the text of such a line, for array and string content.
-/

namespace TurnRelay.Json

/-! ## Members read again from their own bytes -/

/-- A member's value, in an object read from a document, is read from that document too. -/
theorem Node.ReadFrom.of_membersNamed {src : ByteArray} {sp : Span} {ms : List (String × Node)}
    {field : String} {v : Node} (h : (Node.object sp ms).ReadFrom src)
    (hv : v ∈ membersNamed field ms) : v.ReadFrom src := by
  obtain ⟨m, hm, rfl⟩ := List.mem_map.1 hv
  cases h with
  | object _ hall => exact hall m (List.mem_of_mem_filter hm)

/-- The bytes a raw field keeps are those of the last member selecting it. -/
theorem rawOf_of_getLast {field : String} {src d : ByteArray} {ms : List (String × Node)}
    {v : Node} (h : (membersNamed field ms).getLast? = some v) :
    rawOf field src d ms = v.raw src := by
  rw [rawOf, List.getLastD_eq_getLast?, List.getLast?_map, h]
  rfl

theorem raw_size_pos {src : ByteArray} {n : Node} (h : n.ReadsAlone src) :
    0 < (n.raw src).size := by
  rw [Node.raw, size_extract_of_le h.stop_le]
  have := h.span_lt
  omega

/-- A value's own bytes start with the byte its kind starts with in the document. -/
theorem byteAt_raw {src : ByteArray} {n : Node} (h : n.ReadsAlone src) :
    Utf8.byteAt (n.raw src) 0 = Utf8.byteAt src n.span.start :=
  byteAt_extract_zero (raw_size_pos h)

end TurnRelay.Json

namespace TurnRelay.Assistant

open TurnRelay.Json

/-! ## The body of an assistant line -/

/-- What an assistant line's `message` accepts: a string or `null` for the model, anything for
the content. -/
def AssistantBody.fits (name : String) (v : Node) (_ : ByteArray) : Bool :=
  name == "content" || v.textual

/-- Whether a value fits an assistant line's `message`: `null`, or an object whose members
naming the model are strings or `null`. -/
def bodyFits : Node → Bool
  | .object _ ms => (membersNamed "model" ms).all Node.textual
  | .null _ => true
  | _ => false

theorem assistantBody_fieldsReadAs : FieldsReadAs AssistantBody.fields AssistantBody.fits := by
  intro f hf b v
  simp only [AssistantBody.fields, List.mem_cons, List.not_mem_nil, or_false] at hf
  rcases hf with rfl | rfl
  · exact readsAs_bind_pure (readsAs_text _ _ _) _
  · exact readsAs_bind_pure (readsAs_raw _ _) _

theorem assistantBody_namesApart : NamesApart AssistantBody.fields := by
  unfold NamesApart AssistantBody.fields
  decide

theorem assistantBody_readsAs (b : AssistantBody) (n : Node) :
    ReadsAs (AssistantBody.reader b n) fun _ => bodyFits n := by
  refine readsAs_congr (readsAs_record assistantBody_fieldsReadAs _ b n) ?_
  intro src
  cases n with
  | object sp ms =>
    rw [recordFits, memberFits_all assistantBody_namesApart]
    simp [AssistantBody.fields, AssistantBody.fits, bodyFits]
  | _ => rfl

attribute [ext] AssistantBody

/-- An assistant line's `message` as an object's members give it: the last string naming the
model, and the bytes of the last member naming the content. -/
def AssistantBody.ofMembers (src : ByteArray) (ms : List (String × Node)) : AssistantBody where
  model := ((membersNamed "model" ms).filterMap Node.stringValue?).getLastD ""
  content := rawOf "content" src ByteArray.empty ms

theorem assistantBody_value (src : ByteArray) (sp : Span) (ms : List (String × Node)) :
    (AssistantBody.reader {} (.object sp ms)).value src = AssistantBody.ofMembers src ms := by
  rw [AssistantBody.reader, value_record assistantBody_fieldsReadAs, recordValue]
  apply AssistantBody.ext
  · exact get_recordStep_filterMap assistantBody_namesApart (.head _) src AssistantBody.model
      Node.stringValue? (fun b v => by simp) (by simp [AssistantBody.fields]) ms {}
  · exact get_recordStep_map assistantBody_namesApart (.tail _ (.head _)) src AssistantBody.content
      (·.raw src) (fun b v => by simp) (by simp [AssistantBody.fields]) ms {}

/-! ## Content blocks -/

/-- Whether a value may be read as a content block: `null`, or an object whose members naming
the type, the text, the name or the id are strings or `null`. -/
def blockFits : Node → Bool
  | .object _ ms => (membersNamed "type" ms).all Node.textual &&
      (membersNamed "text" ms).all Node.textual &&
      (membersNamed "name" ms).all Node.textual &&
      (membersNamed "id" ms).all Node.textual
  | .null _ => true
  | _ => false

theorem block_fieldsReadAs : FieldsReadAs Block.fields fun _ v _ => v.textual := by
  intro f hf b v
  simp only [Block.fields, List.mem_cons, List.not_mem_nil, or_false] at hf
  rcases hf with rfl | rfl | rfl | rfl <;> exact readsAs_bind_pure (readsAs_text _ _ _) _

theorem block_namesApart : NamesApart Block.fields := by
  unfold NamesApart Block.fields
  decide

theorem block_readsAs (b : Block) (n : Node) : ReadsAs (Block.reader b n) fun _ => blockFits n := by
  refine readsAs_congr (readsAs_record block_fieldsReadAs _ b n) ?_
  intro src
  cases n with
  | object sp ms =>
    rw [recordFits, memberFits_all block_namesApart]
    simp [Block.fields, blockFits, Bool.and_assoc]
  | _ => rfl

attribute [ext] Block

/-- A content block as a value gives it: for an object, the last string naming each of its
type, text, name and id; nothing set for anything else. -/
def Block.ofNode : Node → Block
  | .object _ ms =>
    { blockType := ((membersNamed "type" ms).filterMap Node.stringValue?).getLastD "",
      text := ((membersNamed "text" ms).filterMap Node.stringValue?).getLastD "",
      name := ((membersNamed "name" ms).filterMap Node.stringValue?).getLastD "",
      id := ((membersNamed "id" ms).filterMap Node.stringValue?).getLastD "" }
  | _ => {}

theorem block_value (src : ByteArray) (n : Node) :
    (Block.reader {} n).value src = Block.ofNode n := by
  cases n with
  | object sp ms =>
    rw [Block.reader, value_record block_fieldsReadAs, recordValue]
    apply Block.ext
    · exact get_recordStep_filterMap block_namesApart (.head _) src Block.blockType
        Node.stringValue? (fun b v => by simp) (by simp [Block.fields]) ms {}
    · exact get_recordStep_filterMap block_namesApart (.tail _ (.head _)) src Block.text
        Node.stringValue? (fun b v => by simp) (by simp [Block.fields]) ms {}
    · exact get_recordStep_filterMap block_namesApart (.tail _ (.tail _ (.head _))) src Block.name
        Node.stringValue? (fun b v => by simp) (by simp [Block.fields]) ms {}
    · exact get_recordStep_filterMap block_namesApart (.tail _ (.tail _ (.tail _ (.head _)))) src
        Block.id Node.stringValue? (fun b v => by simp) (by simp [Block.fields]) ms {}
  | _ => rfl


/-! ## The text of an assistant message -/

/-- The text an element of an assistant message's content adds: an object whose last string
naming the type is `text` adds its last string naming the text (empty when there is none);
anything else adds nothing. -/
def elementText? : Node → Option String
  | .object _ ms =>
    if ((membersNamed "type" ms).filterMap Node.stringValue?).getLastD "" = "text" then
      some (((membersNamed "text" ms).filterMap Node.stringValue?).getLastD "")
    else none
  | _ => none

/-- An assistant message holding the blocks of some elements has their texts, in order. -/
theorem text_ofNode (p : Option String) (s model : String) (items : List Node) :
    (Message.assistant p s model (some (items.map Block.ofNode))).text =
      String.join (items.filterMap elementText?) := by
  simp only [Message.text, Option.getD_some, List.filterMap_map]
  congr 1
  apply List.filterMap_congr
  intro e _
  cases e <;> simp [Block.ofNode, elementText?]

@[simp] theorem blockFits_shift (o : ℕ) (n : Node) : blockFits (n.shift o) = blockFits n := by
  cases n <;>
    simp [Node.shift_array, Node.shift_object, blockFits, membersNamed_shift, Function.comp_def]

@[simp] theorem Block.ofNode_shift (o : ℕ) (n : Node) :
    Block.ofNode (n.shift o) = Block.ofNode n := by
  cases n <;>
    simp [Node.shift_array, Node.shift_object, Block.ofNode, membersNamed_shift, List.filterMap_map]

@[simp] theorem bodyFits_shift (o : ℕ) (n : Node) : bodyFits (n.shift o) = bodyFits n := by
  cases n <;>
    simp [Node.shift_array, Node.shift_object, bodyFits, membersNamed_shift, Function.comp_def]

/-! ## Reading the content -/

theorem contentList_readsAs (n : Node) :
    ReadsAs (list "[]upstream.ContentBlock" (Block.reader {}) none n)
      fun src => listFits (fun e _ => blockFits e) src n :=
  readsAs_list (fun e => block_readsAs {} e) _ _ n

/-- Content that is an array is read block by block, all or nothing: its blocks when every
element fits a block, and no content at all when one does not. -/
theorem parseContent_array {raw : ByteArray} {sp : Span} {items : List Node}
    (hp : parse raw = .ok (.array sp items)) (h0 : Utf8.byteAt raw 0 ≠ 0x22)
    (hsize : raw.size ≠ 0) :
    parseContent raw = if items.all blockFits then some (items.map Block.ofNode) else none := by
  unfold parseContent
  rw [if_neg (by simpa using hsize), if_neg (by simpa using h0)]
  split_ifs with hall
  · rw [read_eq_ok contentList_readsAs hp (by simpa [listFits] using hall),
      value_list_array (fun e => block_readsAs {} e)]
    simp [block_value]
  · obtain ⟨e, he⟩ := read_eq_mismatch contentList_readsAs hp (by simpa [listFits] using hall) ""
    rw [he]

/-- Content that is a string is one text block holding it. -/
theorem parseContent_string {raw : ByteArray} {sp : Span} {t : String}
    (hp : parse raw = .ok (.string sp t)) (h0 : Utf8.byteAt raw 0 = 0x22) (hsize : raw.size ≠ 0) :
    parseContent raw = some [{ blockType := "text", text := t }] := by
  unfold parseContent
  rw [if_neg (by simpa using hsize), if_pos (by simpa using h0),
    read_eq_ok (fun n => readsAs_text n _ _) hp rfl]
  rfl

section Member

variable {src : ByteArray}

theorem parseContent_raw_array {csp : Span} {items : List Node}
    (hr : (Node.array csp items).ReadsAlone src) (hf : (Node.array csp items).ReadFrom src) :
    parseContent ((Node.array csp items).raw src) =
      if items.all blockFits then some (items.map Block.ofNode) else none := by
  have hp := hr.parse_raw
  rw [Node.shift_array] at hp
  have h0 : Utf8.byteAt ((Node.array csp items).raw src) 0 = 0x5B := by
    rw [byteAt_raw hr]
    cases hf with
    | array hb _ => exact hb
  rw [parseContent_array hp (by rw [h0]; decide) (Nat.pos_iff_ne_zero.1 (raw_size_pos hr))]
  simp [List.all_map, Function.comp_def]

theorem parseContent_raw_string {csp : Span} {t : String}
    (hr : (Node.string csp t).ReadsAlone src) (hf : (Node.string csp t).ReadFrom src) :
    parseContent ((Node.string csp t).raw src) = some [{ blockType := "text", text := t }] := by
  have hp := hr.parse_raw
  rw [Node.shift_string] at hp
  refine parseContent_string hp ?_ (Nat.pos_iff_ne_zero.1 (raw_size_pos hr))
  rw [byteAt_raw hr]
  cases hf with
  | string hb _ => exact hb

/-- An object's own bytes, read as an assistant line's `message`, give the last string naming
the model and keep the bytes the last content member has in the document. -/
theorem read_assistantBody_raw {bsp : Span} {bms : List (String × Node)}
    (hr : (Node.object bsp bms).ReadsAlone src) (hfit : bodyFits (.object bsp bms) = true) :
    Decoder.read ((Node.object bsp bms).raw src) "" (AssistantBody.reader {}) =
      .ok { model := ((membersNamed "model" bms).filterMap Node.stringValue?).getLastD "",
            content := rawOf "content" src ByteArray.empty bms } := by
  have hp := hr.parse_raw
  rw [read_eq_ok (fun n => assistantBody_readsAs {} n) hp (by rw [bodyFits_shift]; exact hfit),
    Node.shift_object, assistantBody_value]
  congr 1
  apply AssistantBody.ext
  · simp [AssistantBody.ofMembers, membersNamed_shift, List.filterMap_map]
  · exact rawOf_shift hr "content"

end Member


/-! ## Assistant lines -/

theorem parseLine_of_assistant {line : ByteArray} {head : LineHead} {b : AssistantBody}
    (h : Decoder.read line "" (LineHead.reader {}) = .ok head) (hk : head.lineType = "assistant")
    (hm : 0 < head.message.size)
    (hb : Decoder.read head.message "" (AssistantBody.reader {}) = .ok b) :
    Message.parseLine line = .ok (some (.assistant head.parentToolUseId head.sessionId b.model
      (parseContent b.content))) := by
  simp [Message.parseLine, h, hk, hm, hb]

/-- A member of a member of a document's object is read from the document and reads alone. -/
theorem innerMember_reads {line : ByteArray} {sp bsp : Span} {ms bms : List (String × Node)}
    {outer inner : String} {v : Node} (hp : parse line = .ok (.object sp ms))
    (hout : (membersNamed outer ms).getLast? = some (.object bsp bms))
    (hin : (membersNamed inner bms).getLast? = some v) : v.ReadsAlone line ∧ v.ReadFrom line := by
  have hmem := List.mem_of_getLast? hout
  have hr := (parse_readsAlone hp).child (mem_children_of_membersNamed hmem)
  have hf := (parse_readFrom hp).2.of_membersNamed hmem
  have hvm := List.mem_of_getLast? hin
  exact ⟨(hr.2.2.child (mem_children_of_membersNamed hvm)).2.2, hf.of_membersNamed hvm⟩

/-- An assistant line whose common members and `message` fit is an assistant message: the model
is the last string naming it, and the content is read from the bytes of the last member naming
it. -/
theorem parseLine_assistant_object {line : ByteArray} {sp : Span} {ms : List (String × Node)}
    (hp : parse line = .ok (.object sp ms)) (hfit : envelopeFits (.object sp ms) = true)
    (htype : (LineHead.ofMembers line ms).lineType = "assistant")
    {bsp : Span} {bms : List (String × Node)}
    (hmsg : (membersNamed "message" ms).getLast? = some (.object bsp bms))
    (hbody : bodyFits (.object bsp bms) = true) :
    Message.parseLine line = .ok (some (.assistant (LineHead.ofMembers line ms).parentToolUseId
      (LineHead.ofMembers line ms).sessionId
      (((membersNamed "model" bms).filterMap Node.stringValue?).getLastD "")
      (parseContent (rawOf "content" line ByteArray.empty bms)))) := by
  have hmr := (parse_readsAlone hp).child (mem_children_of_membersNamed (List.mem_of_getLast? hmsg))
  have hbytes : (LineHead.ofMembers line ms).message = (Node.object bsp bms).raw line :=
    rawOf_of_getLast hmsg
  exact parseLine_of_assistant (read_lineHead_ok hp hfit) htype
    (by rw [LineHead.ofNode, hbytes]; exact raw_size_pos hmr.2.2)
    (by rw [LineHead.ofNode, hbytes]; exact read_assistantBody_raw hmr.2.2 hbody)

/-- The text of an assistant line whose common members and `message` fit. Content that is an
array gives the texts of its text blocks in order, but only when every element fits a block
(an object whose type, text, name and id members are strings or `null`, or `null` itself): a
single element that does not, such as a bare string, leaves the message with no text at all.
Content that is a string is that text. -/
theorem assistant_text_needs_every_block (line : ByteArray) (sp : Span)
    (ms : List (String × Node)) (hp : parse line = .ok (.object sp ms))
    (hfit : envelopeFits (.object sp ms) = true)
    (htype : (LineHead.ofMembers line ms).lineType = "assistant")
    (bsp : Span) (bms : List (String × Node))
    (hmsg : (membersNamed "message" ms).getLast? = some (.object bsp bms))
    (hbody : bodyFits (.object bsp bms) = true) :
    ∃ m : Message, Message.parseLine line = .ok (some m) ∧
      (∃ model content, m = .assistant (LineHead.ofMembers line ms).parentToolUseId
        (LineHead.ofMembers line ms).sessionId model content) ∧
      (∀ csp items, (membersNamed "content" bms).getLast? = some (.array csp items) →
        m.text = if items.all blockFits then String.join (items.filterMap elementText?) else "") ∧
      (∀ csp t, (membersNamed "content" bms).getLast? = some (.string csp t) → m.text = t) := by
  refine ⟨_, parseLine_assistant_object hp hfit htype hmsg hbody, ⟨_, _, rfl⟩, ?_, ?_⟩
  · -- the content member is read again from its own bytes, as a list of blocks
    intro csp items hc
    obtain ⟨hcr, hcf⟩ := innerMember_reads hp hmsg hc
    rw [rawOf_of_getLast hc, parseContent_raw_array hcr hcf]
    split_ifs
    · exact text_ofNode _ _ _ _
    · rfl
  · intro csp t hc
    obtain ⟨hcr, hcf⟩ := innerMember_reads hp hmsg hc
    rw [rawOf_of_getLast hc, parseContent_raw_string hcr hcf]
    simp [Message.text]

theorem one_text_block_read :
    ∃ m : Message, Message.parseLine
      "\x7b\"type\":\"assistant\",\"message\":\x7b\"content\":[\x7b\"type\":\"text\",\"text\":\"hi\"\x7d]\x7d\x7d".toUTF8 = .ok (some m) ∧ m.text = "hi" := by
  have hp : parse "\x7b\"type\":\"assistant\",\"message\":\x7b\"content\":[\x7b\"type\":\"text\",\"text\":\"hi\"\x7d]\x7d\x7d".toUTF8 =
      .ok (.object ⟨0, 72⟩ [("type", .string ⟨8, 19⟩ "assistant"), ("message", .object ⟨30, 71⟩
        [("content", .array ⟨41, 70⟩ [.object ⟨42, 69⟩
          [("type", .string ⟨50, 56⟩ "text"), ("text", .string ⟨64, 68⟩ "hi")]])])]) := by
    set_option maxRecDepth 100000 in
    with_unfolding_all rfl
  obtain ⟨m, hm, -, harr, -⟩ :=
    assistant_text_needs_every_block _ _ _ hp (by decide) (by decide) _ _ rfl (by decide)
  exact ⟨m, hm, by rw [harr _ _ rfl]; decide⟩

/-- A bare string among an assistant message's content blocks leaves the message with no text,
the text block after it included. -/
theorem stray_element_erases_text :
    ∃ m : Message, Message.parseLine
      "\x7b\"type\":\"assistant\",\"message\":\x7b\"content\":[\"stray\",\x7b\"type\":\"text\",\"text\":\"hello\"\x7d]\x7d\x7d".toUTF8 = .ok (some m) ∧ m.text = "" := by
  have hp : parse "\x7b\"type\":\"assistant\",\"message\":\x7b\"content\":[\"stray\",\x7b\"type\":\"text\",\"text\":\"hello\"\x7d]\x7d\x7d".toUTF8 =
      .ok (.object ⟨0, 83⟩ [("type", .string ⟨8, 19⟩ "assistant"), ("message", .object ⟨30, 82⟩
        [("content", .array ⟨41, 81⟩ [.string ⟨42, 49⟩ "stray", .object ⟨50, 80⟩
          [("type", .string ⟨58, 64⟩ "text"), ("text", .string ⟨72, 79⟩ "hello")]])])]) := by
    set_option maxRecDepth 100000 in
    with_unfolding_all rfl
  have hc : (membersNamed "content" [("content", .array ⟨41, 81⟩ [.string ⟨42, 49⟩ "stray",
      .object ⟨50, 80⟩ [("type", .string ⟨58, 64⟩ "text"),
        ("text", .string ⟨72, 79⟩ "hello")]])]).getLast? =
      some (.array ⟨41, 81⟩ [.string ⟨42, 49⟩ "stray", .object ⟨50, 80⟩
        [("type", .string ⟨58, 64⟩ "text"), ("text", .string ⟨72, 79⟩ "hello")]]) := rfl
  obtain ⟨hcr, hcf⟩ := innerMember_reads hp (rfl : (membersNamed "message" _).getLast? = some _) hc
  refine ⟨_, parseLine_assistant_object hp (by decide) (by decide) rfl (by decide), ?_⟩
  rw [rawOf_of_getLast hc, parseContent_raw_array hcr hcf]
  decide

end TurnRelay.Assistant
