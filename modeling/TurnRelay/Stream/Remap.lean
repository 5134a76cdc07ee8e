import TurnRelay.Assistant.Event

/-!
# What the client sees of an event

Events are passed to the client as they came, with two exceptions.

* Tool use is hidden. A `tool_use` block's start puts its index into the hidden set, and every
  later start, delta or stop at a hidden index is dropped; a new message empties the set.
* The stop reason is always `end_turn`, so that a client never tries to run a tool the assistant
  has already run. A message delta is written anew with that stop reason, the event's stop
  sequence and its usage counters, `output_tokens` defaulting to `0`.

## Main definitions

* `remap` decides one event against the hidden set.
* `endTurnDelta` writes the message delta the client gets.
-/

namespace TurnRelay.Stream

open TurnRelay.Json TurnRelay.Assistant

/-- One event ready for the client: its name and its data. -/
structure Outgoing where
  name : String
  data : ByteArray
  deriving Inhabited

/-- Indices of hidden blocks, ascending, each once. -/
abbrev IndexSet := List Int

/-- Adds an index to a set. -/
def IndexSet.insert (s : IndexSet) (i : Int) : IndexSet :=
  if s.contains i then s else
    let (lo, hi) := s.partition (· < i)
    lo ++ i :: hi

/-- Why an event cannot be remapped. -/
inductive RemapError where
  /-- There is no event. -/
  | unhandled
  /-- The message delta could not be written. -/
  | encode (message : String)
  deriving Inhabited

/-- The wording of a remap failure. -/
def RemapError.message : RemapError → String
  | .unhandled => "remap: unhandled event <nil>"
  | .encode m => "encode message_delta: " ++ m

/-- The usage counters with `output_tokens` set to `0` when it is absent. -/
def withOutputTokens (usage : Option Dict) : Dict :=
  let u := usage.getD []
  if (u.get? "output_tokens").isSome then u else u.insert "output_tokens" (.number 0)

/-- The message delta the client gets: stop reason `end_turn`, the given stop sequence, and the
usage counters with `output_tokens` defaulting to `0`. -/
def endTurnDelta (stopSequence : Option String) (usage : Option Dict) : Except String ByteArray := do
  let u ← Dict.render (withOutputTokens usage)
  pure (Writer.object [
    ("type", Writer.str "message_delta"),
    ("delta", Writer.object [("stop_reason", Writer.str "end_turn"),
      ("stop_sequence", Writer.optStr stopSequence)]),
    ("usage", u)])

/-- An event passed on as it came. -/
def verbatim (ev : Event) : Outgoing := ⟨ev.kind.name, ev.raw⟩

/-- Decides one event against the hidden set: what the client gets (nothing for a hidden
event) and the hidden set after it. -/
def remap (ev : Option Event) (hidden : IndexSet) :
    Except RemapError (Option Outgoing × IndexSet) :=
  match ev with
  | none => .error .unhandled
  | some e@(.messageStart _) => .ok (some (verbatim e), [])
  | some e@(.blockStart _ index blockType) =>
    if blockType == "tool_use" then .ok (none, hidden.insert index)
    else if hidden.contains index then .ok (none, hidden)
    else .ok (some (verbatim e), hidden)
  | some e@(.blockDelta _ index _ _) =>
    if hidden.contains index then .ok (none, hidden) else .ok (some (verbatim e), hidden)
  | some e@(.blockStop _ index) =>
    if hidden.contains index then .ok (none, hidden) else .ok (some (verbatim e), hidden)
  | some (.messageDelta _ _ stopSequence usage) =>
    match endTurnDelta stopSequence usage with
    | .ok data => .ok (some ⟨"message_delta", data⟩, hidden)
    | .error m => .error (.encode m)
  | some e@(.messageStop _) => .ok (some (verbatim e), hidden)

end TurnRelay.Stream
