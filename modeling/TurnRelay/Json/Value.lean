import TurnRelay.Json.Write

/-!
# Loose JSON values

Token counters arrive as a JSON object whose members are not known in advance. They are kept as
`Value`s: numbers as doubles, objects as dictionaries in which each name appears once (a later
member of the same name replaces an earlier one). A dictionary is written with its names in
ascending order, whatever order they arrived in.

## Main definitions

* `Value.render` writes a value; it fails only on a number that is not finite.
* `Dict.insert`, `Dict.get?` maintain a dictionary.
-/

namespace TurnRelay.Json

/-- A JSON value without source positions, objects as dictionaries. -/
inductive Value where
  | null
  | bool (b : Bool)
  | number (x : Float)
  | string (s : String)
  | array (items : List Value)
  | object (members : List (String × Value))
  deriving Inhabited

/-- A dictionary of values: each name at most once. -/
abbrev Dict := List (String × Value)

/-- Sets `name` to `v`, replacing an earlier value of that name. -/
def Dict.insert (d : Dict) (name : String) (v : Value) : Dict :=
  if d.any (·.1 == name) then d.map fun (k, w) => if k == name then (k, v) else (k, w)
  else d ++ [(name, v)]

/-- The value of `name`. -/
def Dict.get? (d : Dict) (name : String) : Option Value :=
  (d.find? (·.1 == name)).map (·.2)

/-- Inserts into a list of names kept in ascending order. -/
def insertSorted (x : String × ByteArray) : List (String × ByteArray) → List (String × ByteArray)
  | [] => [x]
  | y :: ys => if x.1 < y.1 then x :: y :: ys else y :: insertSorted x ys

/-- Members sorted by name. -/
def sortByName (ms : List (String × ByteArray)) : List (String × ByteArray) :=
  ms.foldl (fun acc m => insertSorted m acc) []

/-- Why a value cannot be written. -/
def unsupportedMessage (x : Float) : String :=
  "json: unsupported value: " ++ Decimal.displayText x

mutual

/-- The JSON text of a value, dictionaries in name order. -/
def Value.render : Value → Except String ByteArray
  | .null => .ok Writer.null
  | .bool b => .ok (Writer.bool b)
  | .number x =>
    match Decimal.jsonText x with
    | some t => .ok (ascii t)
    | none => .error (unsupportedMessage x)
  | .string s => .ok (quote s)
  | .array items => (renderItems items).map Writer.array
  | .object members => (renderMembers members).map fun ms => Writer.object (sortByName ms)

/-- The texts of a list of values. -/
def renderItems : List Value → Except String (List ByteArray)
  | [] => .ok []
  | v :: rest => do
    let t ← v.render
    let ts ← renderItems rest
    pure (t :: ts)

/-- The texts of dictionary members. -/
def renderMembers : List (String × Value) → Except String (List (String × ByteArray))
  | [] => .ok []
  | (k, v) :: rest => do
    let t ← v.render
    let ts ← renderMembers rest
    pure ((k, t) :: ts)

end

/-- The JSON text of a dictionary, names in ascending order. -/
def Dict.render (d : Dict) : Except String ByteArray := (Value.object d).render

end TurnRelay.Json
