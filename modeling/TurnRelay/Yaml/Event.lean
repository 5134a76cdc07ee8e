import TurnRelay.Yaml.Token

/-!
# Events

The parser turns tokens into a flat series of events, the tree walked in document order: the
stream's and each document's start and end, scalars and aliases, and the start and end of each
sequence and mapping. A node's anchor and tag travel on the event that starts it; a tag is
already expanded through the document's tag handles, and is empty when the node has none.

## Main definitions

* `EventKind`, `Event`.
-/

namespace TurnRelay.Yaml

/-- What an event tells. -/
inductive EventKind where
  | streamStart
  | streamEnd
  | documentStart (implicit : Bool)
  | documentEnd (implicit : Bool)
  | alias (name : String)
  | scalar (anchor : Option String) (tag text : String) (style : ScalarStyle)
  | sequenceStart (anchor : Option String) (tag : String) (flow : Bool)
  | sequenceEnd
  | mappingStart (anchor : Option String) (tag : String) (flow : Bool)
  | mappingEnd
  deriving Inhabited, DecidableEq, Repr

/-- An event and the span of text it comes from. -/
structure Event where
  kind : EventKind
  start : Mark
  stop : Mark
  deriving Inhabited, Repr

/-- The empty plain scalar that stands for a node left out. -/
def Event.empty (m : Mark) : Event := ⟨.scalar none "" "" .plain, m, m⟩

end TurnRelay.Yaml
