import TurnRelay.Api.Request
import TurnRelay.Assistant.Options

/-!
# From a request to a turn

The assistant takes one prompt, not a conversation, so the conversation is written out as a
transcript: one paragraph per message, `Human: ` or `Assistant: ` and the message's text,
paragraphs separated by a blank line, and the system text, when there is any, as the first
paragraph. The requested model is mapped onto the three model families the assistant offers.

## Main definitions

* `mapModel`, `roleLabel`, `prompt`.
* `prepareTurn`: the prompt and the turn's options for a request.
-/

namespace TurnRelay.Api

open TurnRelay.Assistant

/-- Whether `word` occurs in `name`. -/
def mentions (name word : String) : Bool :=
  let cs := name.toList
  (List.range (cs.length + 1)).any fun i => word.toList.isPrefixOf (cs.drop i)

/-- The model family for a requested model name: `opus` or `haiku` when the name mentions it,
`sonnet` for anything else. -/
def mapModel (name : String) : String :=
  if mentions name "opus" then "opus"
  else if mentions name "haiku" then "haiku"
  else "sonnet"

/-- The speaker a role is shown as. -/
def roleLabel (role : String) : String := if role == "assistant" then "Assistant" else "Human"

/-- The separator between paragraphs of the transcript. -/
def paragraphBreak : ByteArray := "\n\n".toUTF8

/-- The transcript of a request. -/
def prompt (req : InboundRequest) : ByteArray :=
  let paragraphs := req.messages.map fun m => (roleLabel m.role ++ ": ").toUTF8 ++ m.content.text
  let body := Json.joinBytes paragraphBreak paragraphs
  let system := req.system.text
  if system == "" then body else (system.toUTF8 ++ paragraphBreak) ++ body

/-- A fresh copy of a tool list. Copying an empty list gives no list: the two mean the same to
the assistant. -/
def copyTools : Option (List String) → Option (List String)
  | some [] => none
  | tools => tools

/-- The prompt and options of the turn that answers `req`: `base` with the mapped model and
copies of its tool lists. -/
def prepareTurn (req : InboundRequest) (base : TurnOptions) : ByteArray × TurnOptions :=
  (prompt req, { base with model := mapModel req.model, allowedTools := copyTools base.allowedTools,
                           disallowedTools := copyTools base.disallowedTools })

end TurnRelay.Api
