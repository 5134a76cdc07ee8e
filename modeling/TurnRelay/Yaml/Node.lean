import TurnRelay.Yaml.Token

/-!
# Nodes

A document is a tree of nodes: scalars, sequences and mappings, each with its tag and the line
(from `1`) where it starts. An alias stands for the node its anchor named; the anchored nodes
are kept apart, in the document, and an alias holds the index of its node there, so a node may
be reached again through every alias naming it, or from inside itself.

Every alias has an identifier of its own, so that following an alias from inside what it stands
for can be told apart from following it twice side by side.

## Main definitions

* `Node`, `Document`.
* `DecodeError` and its message.
-/

namespace TurnRelay.Yaml

/-- A node of a document. -/
inductive Node where
  | scalar (tag text : String) (style : ScalarStyle) (line : Nat)
  | sequence (tag : String) (items : List Node) (line : Nat)
  | mapping (tag : String) (entries : List (Node × Node)) (line : Nat)
  | alias (id : Nat) (name : String) (target : Nat) (line : Nat)
  deriving Inhabited

/-- The line a node starts at. -/
def Node.line : Node → Nat
  | .scalar _ _ _ l | .sequence _ _ l | .mapping _ _ l | .alias _ _ _ l => l

/-- A node's tag; an alias has none. -/
def Node.tag : Node → String
  | .scalar t _ _ _ | .sequence t _ _ | .mapping t _ _ => t
  | .alias _ _ _ _ => ""

/-- What tells two mapping keys apart: their kind and their text (an alias's name; empty for a
collection). -/
def Node.keyIdentity : Node → Nat × String
  | .scalar _ text _ _ => (0, text)
  | .sequence _ _ _ => (1, "")
  | .mapping _ _ _ => (2, "")
  | .alias _ name _ _ => (3, name)

/-- A document: its root and the nodes its anchors name. -/
structure Document where
  root : Node
  anchored : Array Node
  deriving Inhabited

/-- Why a text could not be read into a value. -/
inductive DecodeError where
  /-- The text is not well-formed YAML. -/
  | problem (p : Problem)
  /-- The document cannot be read at all. -/
  | failure (message : String)
  /-- Nodes that do not fit where they stand; reading went on past them. -/
  | mismatches (errors : List ByteArray)
  deriving Inhabited

/-- Joins byte strings with a separator. -/
def joinBytes (sep : ByteArray) : List ByteArray → ByteArray
  | [] => ByteArray.empty
  | b :: bs => bs.foldl (fun acc x => acc ++ sep ++ x) b

/-- The message of a decoding failure. -/
def DecodeError.message : DecodeError → ByteArray
  | .problem p => ("yaml: " ++ p.message).toUTF8
  | .failure m => ("yaml: " ++ m).toUTF8
  | .mismatches es => "yaml: unmarshal errors:\n  ".toUTF8 ++ joinBytes "\n  ".toUTF8 es

end TurnRelay.Yaml
