import Mathlib
import TurnRelay.Proofs.Json.Readers
import TurnRelay.Proofs.Assistant.EventReading
import TurnRelay.Assistant.Message

/-!
# Lines of types not understood

Every line is first read for the members common to all lines: its type, its session, the tool
call it answers, its event and its message. This module says, for every line, when that reading
succeeds and what it gives (`read_lineHead_ok`, `read_lineHead_mismatch`), and then follows the
dispatch on the type.

A line of a type outside the five is skipped only when its common members fit; when they do
not, the line is a protocol error whatever its type. One level down the same holds of stream
events, whose common members are read before their kind. Every protocol error keeps the line it
is about, cut to 200 bytes.

## Main definitions

* `envelopeFits`: whether a value fits the members common to every line.
* `LineHead.ofNode`: the common members a value gives.
* `knownLineTypes`: the five types of line understood.

## Main results

* `lineHead_readsAs`, `lineHead_value`: the common members' reader seen from outside.
* `parseLine_error_line`: every protocol error keeps the line.
* `parseLine_skips_fitting_unknown_lines`: what every line is read as, by its type.
-/

namespace TurnRelay.Assistant

open TurnRelay.Json

/-- What the members common to every line accept: a string or `null` for the type, the session
and the tool call; anything for the event and the message. -/
def LineHead.fits (name : String) (v : Node) (_ : ByteArray) : Bool :=
  name == "event" || name == "message" || v.textual

/-- Whether a line's value fits the members common to every line: `null`, or an object whose
members naming the type, the session or the tool call are strings or `null`. -/
def envelopeFits : Node → Bool
  | .object _ ms => (membersNamed "type" ms).all Node.textual &&
      (membersNamed "session_id" ms).all Node.textual &&
      (membersNamed "parent_tool_use_id" ms).all Node.textual
  | .null _ => true
  | _ => false

/-! ## The members common to every line -/

theorem lineHead_fieldsReadAs : FieldsReadAs LineHead.fields LineHead.fits := by
  intro f hf b v
  simp only [LineHead.fields, List.mem_cons, List.not_mem_nil, or_false] at hf
  rcases hf with rfl | rfl | rfl | rfl | rfl
  · exact readsAs_bind_pure (readsAs_text _ _ _) _
  · exact readsAs_bind_pure (readsAs_text _ _ _) _
  · exact readsAs_bind_pure (readsAs_optText _ _) _
  · exact readsAs_bind_pure (readsAs_raw _ _) _
  · exact readsAs_bind_pure (readsAs_raw _ _) _

theorem lineHead_namesApart : NamesApart LineHead.fields := by
  unfold NamesApart LineHead.fields
  decide

theorem lineHead_readsAs (b : LineHead) (n : Node) :
    ReadsAs (LineHead.reader b n) fun _ => envelopeFits n := by
  refine readsAs_congr (readsAs_record lineHead_fieldsReadAs _ b n) ?_
  intro src
  cases n with
  | object sp ms =>
    rw [recordFits, memberFits_all lineHead_namesApart]
    simp [LineHead.fields, LineHead.fits, envelopeFits, Bool.and_assoc]
  | _ => rfl

attribute [ext] LineHead

/-- The members common to every line as an object's members give them: the last string naming
the type and the session, the last string or `null` naming the tool call, and the bytes of the
last members naming the event and the message. -/
def LineHead.ofMembers (src : ByteArray) (ms : List (String × Node)) : LineHead where
  lineType := ((membersNamed "type" ms).filterMap Node.stringValue?).getLastD ""
  sessionId := ((membersNamed "session_id" ms).filterMap Node.stringValue?).getLastD ""
  parentToolUseId :=
    ((membersNamed "parent_tool_use_id" ms).filterMap Node.optTextValue?).getLastD none
  event := rawOf "event" src ByteArray.empty ms
  message := rawOf "message" src ByteArray.empty ms

theorem lineHead_value (src : ByteArray) (sp : Span) (ms : List (String × Node)) :
    (LineHead.reader {} (.object sp ms)).value src = LineHead.ofMembers src ms := by
  rw [LineHead.reader, value_record lineHead_fieldsReadAs, recordValue]
  -- each field is the fold of its own members; the other fields leave it alone
  apply LineHead.ext
  · exact get_recordStep_filterMap lineHead_namesApart (.head _) src LineHead.lineType
      Node.stringValue? (fun b v => by simp) (by simp [LineHead.fields]) ms {}
  · exact get_recordStep_filterMap lineHead_namesApart (.tail _ (.head _)) src LineHead.sessionId
      Node.stringValue? (fun b v => by simp) (by simp [LineHead.fields]) ms {}
  · exact get_recordStep_filterMap lineHead_namesApart (.tail _ (.tail _ (.head _))) src
      LineHead.parentToolUseId Node.optTextValue? (fun b v => by simp)
      (by simp [LineHead.fields]) ms {}
  · exact get_recordStep_map lineHead_namesApart (.tail _ (.tail _ (.tail _ (.head _)))) src
      LineHead.event (·.raw src) (fun b v => by simp) (by simp [LineHead.fields]) ms {}
  · exact get_recordStep_map lineHead_namesApart
      (.tail _ (.tail _ (.tail _ (.tail _ (.head _))))) src LineHead.message (·.raw src)
      (fun b v => by simp) (by simp [LineHead.fields]) ms {}


/-- The members common to every line as a value gives them: an object's, and none set for
anything else. -/
def LineHead.ofNode (src : ByteArray) : Node → LineHead
  | .object _ ms => LineHead.ofMembers src ms
  | _ => {}

/-- A line whose value fits the members common to every line is read as that value gives them. -/
theorem read_lineHead_ok {line : ByteArray} {n : Node} (hp : parse line = .ok n)
    (hfit : envelopeFits n = true) :
    Decoder.read line "" (LineHead.reader {}) = .ok (LineHead.ofNode line n) := by
  rw [read_eq_ok (fun n => lineHead_readsAs {} n) hp hfit]
  cases n with
  | object sp ms => rw [lineHead_value]; rfl
  | _ => rfl

theorem read_lineHead_mismatch {line : ByteArray} {n : Node} (hp : parse line = .ok n)
    (hfit : envelopeFits n = false) :
    ∃ e, Decoder.read line "" (LineHead.reader {}) = .error (.mismatch e) :=
  read_eq_mismatch (fun n => lineHead_readsAs {} n) hp hfit ""

/-! ## Dispatching on the type -/

/-- The types of line that are understood. -/
def knownLineTypes : List String := ["stream_event", "assistant", "user", "system", "result"]

section Dispatch

variable {line : ByteArray}

theorem parseLine_of_read_error {e : ReadError}
    (h : Decoder.read line "" (LineHead.reader {}) = .error e) :
    Message.parseLine line = .error ⟨.read e, truncateLine line 200⟩ := by
  rw [Message.parseLine, h]

theorem parseLine_of_unknown {head : LineHead}
    (h : Decoder.read line "" (LineHead.reader {}) = .ok head)
    (hk : head.lineType ∉ knownLineTypes) : Message.parseLine line = .ok none := by
  simp only [knownLineTypes, List.mem_cons, List.not_mem_nil, or_false, not_or] at hk
  obtain ⟨h1, h2, h3, h4, h5⟩ := hk
  simp [Message.parseLine, h, h1, h2, h3, h4, h5]

theorem parseLine_of_event_none {head : LineHead}
    (h : Decoder.read line "" (LineHead.reader {}) = .ok head)
    (hk : head.lineType = "stream_event") (he : Event.parse head.event = .ok none) :
    Message.parseLine line = .ok none := by
  simp [Message.parseLine, h, hk, he]

theorem parseLine_of_event_some {head : LineHead}
    (h : Decoder.read line "" (LineHead.reader {}) = .ok head)
    (hk : head.lineType = "stream_event") {ev : Event}
    (he : Event.parse head.event = .ok (some ev)) :
    Message.parseLine line =
      .ok (some (.streamEvent head.parentToolUseId head.sessionId (some ev))) := by
  simp [Message.parseLine, h, hk, he]

theorem parseLine_of_event_error {head : LineHead}
    (h : Decoder.read line "" (LineHead.reader {}) = .ok head)
    (hk : head.lineType = "stream_event") {e : EventError}
    (he : Event.parse head.event = .error e) :
    Message.parseLine line = .error ⟨.event e, truncateLine line 200⟩ := by
  simp [Message.parseLine, h, hk, he]

/-- Every protocol error keeps the line it is about, cut to 200 bytes. -/
theorem parseLine_error_line {e : ProtocolError} (h : Message.parseLine line = .error e) :
    e.line = truncateLine line 200 := by
  unfold Message.parseLine at h
  -- every way to fail goes through the same constructor, whichever part failed
  split at h
  · cases h; rfl
  · -- the type's own part failed, or nothing did
    split_ifs at h
    all_goals
      dsimp only at h
      split at h <;> cases h
    all_goals rfl

end Dispatch


/-! ## Lines of types not understood -/

/-- What a line is read as, for every line. A protocol error keeps the line, cut to its first
200 bytes followed by `...` when longer, and a line that is not JSON is one. A JSON line whose
common members fit (`envelopeFits`) and whose type is none of the five is no message. But a
line whose common members do not fit is a protocol error, whatever its type: a newer type of
line with, say, a numeric `session_id` is not skipped. A stream event line is its event member
read as an event: no message when that member's common members fit and name a kind outside
the six, a protocol error when they do not fit, and otherwise a stream event holding the event,
which keeps the member's bytes. -/
theorem parseLine_skips_fitting_unknown_lines (line : ByteArray) :
    (∀ e, Message.parseLine line = .error e →
      e.line = if line.size ≤ 200 then line else line.extract 0 200 ++ "...".toUTF8) ∧
    (∀ se, parse line = .error se →
      Message.parseLine line = .error ⟨.read (.notJson se), truncateLine line 200⟩) ∧
    (∀ n, parse line = .ok n → envelopeFits n = true →
      (LineHead.ofNode line n).lineType ∉ knownLineTypes → Message.parseLine line = .ok none) ∧
    (∀ n, parse line = .ok n → envelopeFits n = false →
      ∃ e, Message.parseLine line = .error ⟨.read (.mismatch e), truncateLine line 200⟩) ∧
    (∀ n, parse line = .ok n → envelopeFits n = true →
      (LineHead.ofNode line n).lineType = "stream_event" →
      (∀ en, parse (LineHead.ofNode line n).event = .ok en →
        eventHeadFits (LineHead.ofNode line n).event en = true →
        EventKind.ofName? (eventKind en) = none → Message.parseLine line = .ok none) ∧
      (∀ en, parse (LineHead.ofNode line n).event = .ok en →
        eventHeadFits (LineHead.ofNode line n).event en = false →
        ∃ e, Message.parseLine line =
          .error ⟨.event (.head (.mismatch e)), truncateLine line 200⟩) ∧
      (∀ ev, Event.parse (LineHead.ofNode line n).event = .ok (some ev) →
        Message.parseLine line = .ok (some (.streamEvent (LineHead.ofNode line n).parentToolUseId
          (LineHead.ofNode line n).sessionId (some ev))) ∧
        ev.raw = (LineHead.ofNode line n).event)) := by
  refine ⟨fun e h => ?_, fun se hp => ?_, fun n hp hfit hk => ?_, fun n hp hfit => ?_,
    fun n hp hfit hk => ⟨?_, ?_, ?_⟩⟩
  · rw [parseLine_error_line h]
    rfl
  · exact parseLine_of_read_error (read_eq_notJson hp "" _)
  · exact parseLine_of_unknown (read_lineHead_ok hp hfit) hk
  · obtain ⟨e, he⟩ := read_lineHead_mismatch hp hfit
    exact ⟨e, parseLine_of_read_error he⟩
  · -- from here on the line's common members are read, and the event decides
    intro en hep hefit hek
    exact parseLine_of_event_none (read_lineHead_ok hp hfit) hk
      (parse_eq_none_of_unknown hep hefit hek)
  · intro en hep hefit
    obtain ⟨e, he⟩ := parse_eq_head_error hep hefit
    exact ⟨e, parseLine_of_event_error (read_lineHead_ok hp hfit) hk he⟩
  · intro ev he
    exact ⟨parseLine_of_event_some (read_lineHead_ok hp hfit) hk he, raw_of_parse he⟩

theorem future_type_line_skipped :
    Message.parseLine "\x7b\"type\":\"future\"\x7d".toUTF8 = .ok none := by
  have hp : parse "\x7b\"type\":\"future\"\x7d".toUTF8 =
      .ok (.object ⟨0, 17⟩ [("type", .string ⟨8, 16⟩ "future")]) := by
    set_option maxRecDepth 100000 in
    with_unfolding_all rfl
  exact (parseLine_skips_fitting_unknown_lines _).2.2.1 _ hp (by decide) (by decide)

/-- A line of a type not understood is not skipped when its `session_id` is a number. -/
theorem numeric_session_id_not_skipped :
    ∃ e, Message.parseLine "\x7b\"type\":\"future\",\"session_id\":1\x7d".toUTF8 =
      .error ⟨.read (.mismatch e), truncateLine "\x7b\"type\":\"future\",\"session_id\":1\x7d".toUTF8 200⟩ := by
  have hp : parse "\x7b\"type\":\"future\",\"session_id\":1\x7d".toUTF8 =
      .ok (.object ⟨0, 32⟩
        [("type", .string ⟨8, 16⟩ "future"), ("session_id", .number ⟨30, 31⟩)]) := by
    set_option maxRecDepth 100000 in
    with_unfolding_all rfl
  obtain ⟨e, he⟩ := read_lineHead_mismatch hp (by decide)
  exact ⟨e, parseLine_of_read_error he⟩

end TurnRelay.Assistant
