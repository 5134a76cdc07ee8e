import TurnRelay.Json.Value

/-!
# Reading typed records out of JSON

A record type is read from a JSON object member by member, in document order. A member is
matched to a field when their names agree up to case (Unicode simple case folding, so `ſ`
matches `s` and the Kelvin sign matches `k`); members that match no field are ignored, and a
member that matches a field already set replaces its value. `null` leaves a field as it was,
except for optional fields, lists and dictionaries, which it clears.

A member of the wrong kind does not stop the reading: the field keeps its value and the first
such `TypeMismatch` is reported once the whole value has been read. Its message names what was
found, where, and the type the field has. The place is the root type's name and the path to the
value: each member name as the document spells it (not the field's own spelling), with `~` and
`/` escaped as `~0` and `~1`, and each array index, joined by dots. A path with a part made of
digits alone runs through an array, so the message does not call it a struct field.

## Main definitions

* `Decoder` is the reading monad; `Decoder.run` runs one on a document.
* `text`, `optText`, `flag`, `word`, `real`, `raw`, `dict`, `list` and `record` read fields.
* `TypeName.record` spells a record type the way messages show it.
-/

namespace TurnRelay.Json

/-- A value of the wrong kind for the field it was read into. -/
structure TypeMismatch where
  /-- What was found: a kind (`string`, `array`, ...) or `number` and its literal. -/
  found : String
  /-- The field's type, as messages show it. -/
  typeName : String
  /-- The name of the type the path starts from; empty for an unnamed record. -/
  root : String
  /-- Member names (escaped) and indices from the root to the value, outermost first. -/
  path : List String
  deriving Inhabited

/-- Whether a dotted path has a part that is an array index: digits alone. -/
def hasIndexPart (field : String) : Bool :=
  (field.splitOn ".").any fun part => !part.isEmpty && part.all Char.isDigit

/-- The wording of a type mismatch. -/
def TypeMismatch.message (e : TypeMismatch) : String :=
  let field := ".".intercalate e.path
  if e.path.isEmpty then
    "json: cannot unmarshal " ++ e.found ++ " into Go value of type " ++ e.typeName
  else if hasIndexPart field then
    "json: cannot unmarshal " ++ e.found ++ " into " ++ e.root ++ "." ++ field ++ " of type " ++
      e.typeName
  else
    "json: cannot unmarshal " ++ e.found ++ " into Go struct field " ++ e.root ++ "." ++ field ++
      " of type " ++ e.typeName

/-- Why a document could not be read into a value: it is not JSON, or a member has the wrong
kind. -/
inductive ReadError where
  | notJson (e : SyntaxError)
  | mismatch (e : TypeMismatch)
  deriving Inhabited

/-- The wording of a read error. -/
def ReadError.message : ReadError → String
  | .notJson e => e.message
  | .mismatch e => e.message

/-- What a decoder sees: the source bytes, the root type's name and the path so far
(innermost first). -/
structure Scope where
  src : ByteArray
  root : String
  path : List String

/-- Reading that goes on after a mismatch and remembers the first one. -/
abbrev Decoder := ReaderT Scope (StateM (Option TypeMismatch))

namespace Decoder

/-- Records a mismatch at the current path unless one is already recorded. -/
def mismatch (found typeName : String) : Decoder Unit := do
  let sc ← read
  modify fun
    | none => some ⟨found, typeName, sc.root, sc.path.reverse⟩
    | some e => some e

/-- A member name as a step of a path: `~` written `~0` and `/` written `~1`. -/
def escapeStep (name : String) : String :=
  String.join (name.toList.map fun c =>
    if c == '~' then "~0" else if c == '/' then "~1" else c.toString)

/-- Runs `act` one step further down the path, at member `name` or at an index. -/
def within {α : Type} (name : String) (act : Decoder α) : Decoder α :=
  withReader (fun sc => { sc with path := escapeStep name :: sc.path }) act

/-- Runs a decoder on a parsed document from `src`. -/
def run {α : Type} (src : ByteArray) (root : String) (act : Decoder α) : α × Option TypeMismatch :=
  ReaderT.run act ({ src := src, root := root, path := [] } : Scope) |>.run none

/-- Parses `src` and reads it with `reader`: a syntax error first, else the first mismatch,
else the value. -/
def read {α : Type} (src : ByteArray) (root : String) (reader : Node → Decoder α) :
    Except ReadError α :=
  match parse src with
  | .error e => .error (.notJson e)
  | .ok node =>
    match run src root (reader node) with
    | (_, some e) => .error (.mismatch e)
    | (v, none) => .ok v

end Decoder

/-! Type names as messages show them. -/
namespace TypeName

/-- An unnamed record type, from its fields' names, types and member names. -/
def record (fields : List (String × String × String)) : String :=
  let shown := fields.map fun (name, ty, member) =>
    name ++ " " ++ ty ++ " \"json:\\\"" ++ member ++ "\\\"\""
  "struct \x7b " ++ "; ".intercalate shown ++ " \x7d"

/-- The type of a field that keeps raw JSON. -/
def rawText : String := "jsontext.Value"

/-- The type of a loose dictionary field. -/
def dictionary : String := "map[string]interface \x7b\x7d"

end TypeName

open Decoder

/-- Whether a member name `key` selects the field called `field` (lowercase ASCII), up to case. -/
def foldMatches (key field : String) : Bool :=
  let ks := key.toList
  let fs := field.toList
  ks.length == fs.length && (ks.zip fs).all fun (k, f) =>
    k == f || (f.isLower && k == f.toUpper) || (f == 's' && k == 'ſ') ||
      (f == 'k' && k == 'K')

/-- The literal text of a number node. -/
def numberText (src : ByteArray) (sp : Span) : String := Utf8.decodeSlice src sp.start sp.stop

/-- A number literal split into sign, all its digits, and the power of ten they are scaled by. -/
def numberParts (lit : String) : Bool × Nat × Int :=
  let cs := lit.toList
  let (neg, cs) := match cs with
    | '-' :: rest => (true, rest)
    | _ => (false, cs)
  let intDigits := cs.takeWhile Char.isDigit
  let rest := cs.dropWhile Char.isDigit
  let (fracDigits, rest) := match rest with
    | '.' :: r => (r.takeWhile Char.isDigit, r.dropWhile Char.isDigit)
    | _ => ([], rest)
  let expValue : Int := match rest with
    | c :: r =>
      if c == 'e' || c == 'E' then
        match r with
        | '-' :: ds => -(Decimal.digitsValue ds : Int)
        | '+' :: ds => Decimal.digitsValue ds
        | ds => Decimal.digitsValue ds
      else 0
    | [] => 0
  (neg, Decimal.digitsValue (intDigits ++ fracDigits), expValue - fracDigits.length)

/-- The double a number literal denotes, or none when it is too large for a double. -/
def numberValue (lit : String) : Option Float :=
  let (neg, m, e) := numberParts lit
  let x := Decimal.scientific neg m e
  if x.isInf then none else some x

/-- A string field of type `typeName`: a string replaces `cur`, `null` keeps it. -/
def text (typeName : String) (cur : String) : Node → Decoder String
  | .string _ t => pure t
  | .null _ => pure cur
  | n => do mismatch n.kindName typeName; pure cur

/-- An optional string field: a string sets it, `null` clears it. -/
def optText (cur : Option String) : Node → Decoder (Option String)
  | .string _ t => pure (some t)
  | .null _ => pure none
  | n => do mismatch n.kindName "string"; pure cur

/-- A boolean field. -/
def flag (cur : Bool) : Node → Decoder Bool
  | .bool _ b => pure b
  | .null _ => pure cur
  | n => do mismatch n.kindName "bool"; pure cur

/-- A signed 64-bit integer field of type `typeName`: the number must be an integer literal
in range. -/
def word (typeName : String) (cur : Int) : Node → Decoder Int
  | .number sp => do
    let lit := numberText (← read).src sp
    match Decimal.parseWord lit with
    | .ok v => pure v
    | .error _ => do mismatch ("number " ++ lit) typeName; pure cur
  | .null _ => pure cur
  | n => do mismatch n.kindName typeName; pure cur

/-- A double field: the number must not overflow. -/
def real (cur : Float) : Node → Decoder Float
  | .number sp => do
    let lit := numberText (← read).src sp
    match numberValue lit with
    | some x => pure x
    | none => do mismatch ("number " ++ lit) "float64"; pure cur
  | .null _ => pure cur
  | n => do mismatch n.kindName "float64"; pure cur

/-- A field that keeps its member's source bytes, whatever they are; `null` is kept as `null`. -/
def raw (_cur : ByteArray) (n : Node) : Decoder ByteArray := do
  pure (n.raw (← read).src)

mutual

/-- Any value, as a loose `Value`; a number too large for a double is a mismatch and reads as
`null`. -/
def loose : Node → Decoder Value
  | .null _ => pure .null
  | .bool _ b => pure (.bool b)
  | .number sp => do
    let lit := numberText (← read).src sp
    match numberValue lit with
    | some x => pure (.number x)
    | none => do mismatch ("number " ++ lit) "float64"; pure .null
  | .string _ t => pure (.string t)
  | .array _ items => do pure (.array (← looseItems 0 items))
  | .object _ members => do pure (.object (← looseMembers [] members))

/-- The elements of a loose array, numbered from `i`. -/
def looseItems (i : Nat) : List Node → Decoder (List Value)
  | [] => pure []
  | n :: rest => do
    let v ← within (toString i) (loose n)
    let vs ← looseItems (i + 1) rest
    pure (v :: vs)

/-- The members of a loose object, later names replacing earlier ones. -/
def looseMembers (acc : Dict) : List (String × Node) → Decoder Dict
  | [] => pure acc
  | (k, n) :: rest => do
    let v ← within k (loose n)
    looseMembers (acc.insert k v) rest

end

/-- A dictionary field: an object's members are added to the current dictionary, `null` clears
it. -/
def dict (cur : Option Dict) : Node → Decoder (Option Dict)
  | .object _ members => do pure (some (← looseMembers (cur.getD []) members))
  | .null _ => pure none
  | n => do mismatch n.kindName TypeName.dictionary; pure cur

/-- A list field of type `typeName`, each element read by `elem` from a fresh value; `null`
clears it. -/
def list {α : Type} (typeName : String) (elem : Node → Decoder α) (cur : Option (List α)) :
    Node → Decoder (Option (List α))
  | .array _ items => do
    let xs ← (items.zipIdx).mapM fun (n, i) => within (toString i) (elem n)
    pure (some xs)
  | .null _ => pure none
  | n => do mismatch n.kindName typeName; pure cur

/-- How one field of a record is set from a member's value. -/
abbrev FieldReader (σ : Type) := σ → Node → Decoder σ

/-- A record of type `typeName` read from an object, member by member; `null` leaves it as it
was. Each field is listed by its member name; a mismatch inside it is placed at the member's
name as the document spells it. -/
def record {σ : Type} (typeName : String) (fields : List (String × FieldReader σ)) (cur : σ) :
    Node → Decoder σ
  | .object _ members =>
    members.foldlM (fun acc (k, v) =>
      match fields.find? (fun f => foldMatches k f.1) with
      | some f => within k (f.2 acc v)
      | none => pure acc) cur
  | .null _ => pure cur
  | n => do mismatch n.kindName typeName; pure cur

end TurnRelay.Json
