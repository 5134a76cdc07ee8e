import Mathlib
import TurnRelay.Proofs.Json.Readers
import TurnRelay.Assistant.Event

/-!
# Reading an event's common members

`Event.parse` reads an event's common members before it looks at the kind. For every value this
module says when that reading succeeds and which kind it finds. The members naming the type must
be strings or `null`, those naming the index integers written in range, those naming the content
block records whose type is a string, and those naming the usage objects of finite numbers.

So an event whose common members fit and whose kind is none of the six is no event
(`parse_eq_none_of_unknown`), while one whose members do not fit is malformed whatever its kind
(`parse_eq_head_error`): an event of a newer kind with, say, a string index is not skipped.
Whatever its kind, an event read keeps the bytes it was read from (`raw_of_parse`).

## Main definitions

* `eventHeadFits`: whether a value fits an event's common members.
* `eventKind`: the kind a value names.

## Main results

* `eventHead_readsAs`, `eventHead_kind`: the common members' reader seen from outside.
* `parse_eq_none_of_unknown`, `parse_eq_head_error`, `raw_of_parse`.
-/

namespace TurnRelay.Assistant

open TurnRelay.Json

/-- Whether a value may be read as the record holding a content block's type: `null`, or an
object whose members naming the type are strings or `null`. -/
def blockTypeFits : Node → Bool
  | .object _ ms => (membersNamed "type" ms).all Node.textual
  | .null _ => true
  | _ => false

/-- What the members common to every event accept: an integer for the index, a record holding a
content block's type, anything for the delta, a dictionary of finite numbers for the usage, and
a string or `null` for the type. -/
def EventHead.fits (name : String) (v : Node) (src : ByteArray) : Bool :=
  if name = "index" then v.wordFits src
  else if name = "content_block" then blockTypeFits v
  else if name = "delta" then true
  else if name = "usage" then v.dictFits src
  else v.textual

/-- Whether an event's value fits the members common to every event: `null`, or an object whose
members naming the type are strings or `null`, naming the index integers in range or `null`,
naming the content block records of a string type or `null`, and naming the usage objects of
finite numbers or `null`. -/
def eventHeadFits (src : ByteArray) : Node → Bool
  | .object _ ms => (membersNamed "type" ms).all Node.textual &&
      (membersNamed "index" ms).all (Node.wordFits src) &&
      (membersNamed "content_block" ms).all blockTypeFits &&
      (membersNamed "usage" ms).all (Node.dictFits src)
  | .null _ => true
  | _ => false

/-- The kind an event's value names: the last string among its members naming the type. -/
def eventKind : Node → String
  | .object _ ms => ((membersNamed "type" ms).filterMap Node.stringValue?).getLastD ""
  | _ => ""

theorem blockTypeFields_readsAs : FieldsReadAs blockTypeFields fun _ v _ => v.textual := by
  intro f hf b v
  simp only [blockTypeFields, List.mem_cons, List.not_mem_nil, or_false] at hf
  subst hf
  exact readsAs_text _ _ _

theorem blockType_readsAs (b : String) (n : Node) :
    ReadsAs (record blockTypeRecord blockTypeFields b n) fun _ => blockTypeFits n := by
  refine readsAs_congr (readsAs_record blockTypeFields_readsAs _ b n) ?_
  intro src
  cases n with
  | object sp ms =>
    rw [recordFits, memberFits_all (by unfold NamesApart blockTypeFields; decide)]
    simp [blockTypeFields, blockTypeFits]
  | _ => rfl

theorem eventHead_fieldsReadAs : FieldsReadAs EventHead.fields EventHead.fits := by
  intro f hf b v
  simp only [EventHead.fields, List.mem_cons, List.not_mem_nil, or_false] at hf
  rcases hf with rfl | rfl | rfl | rfl | rfl
  · exact readsAs_congr (readsAs_bind_pure (readsAs_text _ _ _) _) fun _ => by simp [EventHead.fits]
  · exact readsAs_congr (readsAs_bind_pure (readsAs_word _ _ _) _) fun _ => by simp [EventHead.fits]
  · exact readsAs_congr (readsAs_bind_pure (blockType_readsAs _ _) _) fun _ => by
      simp [EventHead.fits]
  · exact readsAs_congr (readsAs_bind_pure (readsAs_raw _ _) _) fun _ => by simp [EventHead.fits]
  · exact readsAs_congr (readsAs_bind_pure (readsAs_dict _ _) _) fun _ => by simp [EventHead.fits]

theorem eventHead_namesApart : NamesApart EventHead.fields := by
  unfold NamesApart EventHead.fields
  decide

theorem eventHead_readsAs (b : EventHead) (n : Node) :
    ReadsAs (EventHead.reader b n) fun src => eventHeadFits src n := by
  refine readsAs_congr (readsAs_record eventHead_fieldsReadAs _ b n) ?_
  intro src
  cases n with
  | object sp ms =>
    rw [recordFits, memberFits_all eventHead_namesApart]
    simp [EventHead.fields, EventHead.fits, eventHeadFits, Bool.and_assoc]
  | _ => rfl

theorem eventHead_kind (src : ByteArray) (n : Node) :
    ((EventHead.reader {} n).value src).kind = eventKind n := by
  cases n with
  | object sp ms =>
    rw [EventHead.reader, value_record eventHead_fieldsReadAs, recordValue]
    exact get_recordStep_filterMap eventHead_namesApart (.head _) src EventHead.kind
      Node.stringValue? (fun b v => by simp) (by simp [EventHead.fields]) ms {}
  | _ => rfl


/-! ## Reading an event -/

/-- An event whose common members fit, of a kind outside the six, is no event. -/
theorem parse_eq_none_of_unknown {src : ByteArray} {n : Node} (hp : parse src = .ok n)
    (hfit : eventHeadFits src n = true) (hk : EventKind.ofName? (eventKind n) = none) :
    Event.parse src = .ok none := by
  have hread := read_eq_ok (fun n => eventHead_readsAs {} n) hp hfit ""
  unfold Event.parse
  rw [hread]
  simp only [Except.mapError, bind, Except.bind, eventHead_kind, hk]
  rfl

/-- An event whose common members do not fit is malformed, whatever its kind. -/
theorem parse_eq_head_error {src : ByteArray} {n : Node} (hp : parse src = .ok n)
    (hfit : eventHeadFits src n = false) : ∃ e, Event.parse src = .error (.head (.mismatch e)) := by
  obtain ⟨e, he⟩ := read_eq_mismatch (fun n => eventHead_readsAs {} n) hp hfit ""
  refine ⟨e, ?_⟩
  unfold Event.parse
  rw [he]
  rfl

/-- An event keeps the bytes it was read from. -/
theorem raw_of_parse {src : ByteArray} {ev : Event} (h : Event.parse src = .ok (some ev)) :
    ev.raw = src := by
  unfold Event.parse at h
  rcases hr : Decoder.read src "" (EventHead.reader {}) with e | head <;>
    simp only [hr, Except.mapError, bind, Except.bind] at h
  · cases h
  rcases hk : EventKind.ofName? head.kind with _ | k <;> simp only [hk] at h
  · cases h
  cases k with
  | messageStart | blockStart | blockStop | messageStop => cases h; rfl
  | blockDelta | messageDelta =>
    -- reading the delta only fills in the event's other parts
    dsimp only at h
    split at h
    · split at h
      · cases h
      · cases h; rfl
    · cases h; rfl

end TurnRelay.Assistant
