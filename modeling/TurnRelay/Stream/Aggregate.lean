import TurnRelay.Assistant.Provider
import TurnRelay.Api.Response

/-!
# Answering a turn in one reply

A client that does not stream gets the turn's answer as one reply message: the text of every
complete assistant message, in order, as a single text block. An empty answer is replaced by a
fixed request for more detail. The first failed result fails the whole reply, but only once
all results have been consumed.
-/

namespace TurnRelay.Stream

open TurnRelay.Assistant TurnRelay.Api

/-- The text given when the turn produced none. -/
def fallbackText : String :=
  "I can help with that. Could you provide more details about what you'd like me to do?"

/-- The joined text of the results and the first failure among them. -/
def collect (results : List Item) : String × Option String :=
  results.foldl (fun (text, first) item =>
    match item with
    | .failure e => (text, if first.isSome then first else some e.message)
    | .message m@(.assistant ..) => (text ++ m.text, first)
    | .message _ => (text, first)) ("", none)

/-- The wording of a turn that could not start. -/
def startFailure (m : String) : String := "start upstream session: " ++ m

/-- The reply to a turn that started with `results`: the reply message with id `messageId`
naming `model`, or the first failure. -/
def aggregate (results : List Item) (messageId model : String) : Except String MessageResponse :=
  match collect results with
  | (_, some e) => .error e
  | (text, none) =>
    .ok { id := messageId,
          content := [⟨"text", if text = "" then fallbackText else text⟩],
          model := model,
          stopReason := some "end_turn" }

end TurnRelay.Stream
