import TurnRelay.Text.Quote
import TurnRelay.Decimal.Shortest

/-!
# Values read without a type

A node read where a value of any type may stand becomes a `Dynamic`: null, a string (bytes,
since `!!binary` may give any), a boolean, an integer (`unsigned` for one beyond the signed
64-bit range), a float, a list, or a map. A map remembers whether all its keys are strings,
which decides the name of its type.

Such values are compared when they serve as keys: two are the same when they are of one kind
and hold equal values, so a float NaN is the same as nothing. A list or a map cannot serve as a
key at all (`hashable` is false).

`literal` writes a value the way a report of an unusable key shows it: the name of its type and
then its items between braces, a map's entries sorted by key.

## Main definitions

* `Dynamic`.
* `Dynamic.same`, `Dynamic.hashable`, `Dynamic.typeName`, `Dynamic.literal`.
-/

namespace TurnRelay.Yaml

/-- A value read without a type to read it into. -/
inductive Dynamic where
  | null
  | text (bytes : ByteArray)
  | flag (b : Bool)
  | integer (n : Int)
  /-- An integer above the signed 64-bit range. -/
  | unsigned (n : Nat)
  | real (x : Float)
  | list (items : List Dynamic)
  /-- A map, with `stringKeys` when every key of the mapping it was read from is a string. -/
  | map (stringKeys : Bool) (entries : List (Dynamic × Dynamic))
  deriving Inhabited

/-- Whether two keys are the same: of one kind and holding equal values. Lists and maps are never
the same as anything, as they cannot be keys. -/
def Dynamic.same : Dynamic → Dynamic → Bool
  | .null, .null => true
  | .text a, .text b => a == b
  | .flag a, .flag b => a == b
  | .integer a, .integer b => a == b
  | .unsigned a, .unsigned b => a == b
  | .real a, .real b => a == b
  | _, _ => false

/-- Whether a value may be a key: everything but lists and maps. -/
def Dynamic.hashable : Dynamic → Bool
  | .list _ | .map _ _ => false
  | _ => true

/-- The name of a map's type. -/
def mapTypeName (stringKeys : Bool) : String :=
  if stringKeys then "map[string]interface \x7b\x7d"
  else "map[interface \x7b\x7d]interface \x7b\x7d"

/-- The name of a value's type. -/
def Dynamic.typeName : Dynamic → String
  | .null => "interface \x7b\x7d"
  | .text _ => "string"
  | .flag _ => "bool"
  | .integer _ => "int"
  | .unsigned _ => "uint64"
  | .real _ => "float64"
  | .list _ => "[]interface \x7b\x7d"
  | .map s _ => mapTypeName s

/-- Where a kind of key goes among keys of other kinds when a map's entries are sorted. -/
def Dynamic.kindRank : Dynamic → Nat
  | .null => 0
  | .flag _ => 1
  | .integer _ => 2
  | .unsigned _ => 3
  | .real _ => 4
  | .text _ => 5
  | .list _ => 6
  | .map _ _ => 7

/-- Byte strings in lexicographic order. -/
def bytesBefore : List UInt8 → List UInt8 → Bool
  | [], _ :: _ => true
  | a :: as, b :: bs => a < b || (a == b && bytesBefore as bs)
  | _, _ => false

/-- The order of keys in a written map: by kind, then by value; a NaN comes before every other
float, `false` before `true`. -/
def Dynamic.before (a b : Dynamic) : Bool :=
  if a.kindRank != b.kindRank then a.kindRank < b.kindRank
  else
    match a, b with
    | .flag x, .flag y => !x && y
    | .integer x, .integer y => x < y
    | .unsigned x, .unsigned y => x < y
    | .real x, .real y => (x.isNaN && !y.isNaN) || x < y
    | .text x, .text y => bytesBefore x.toList y.toList
    | _, _ => false

/-- `n` in lowercase hexadecimal. -/
def hexText (n : Nat) : String := String.ofList (Nat.toDigits 16 n)

mutual

/-- A value written as a literal of its type: a string quoted, an integer above the signed range
in hexadecimal, a null as the empty interface, a list or map as its type's name followed by its
items between braces. -/
def Dynamic.literal : Dynamic → String
  | .null => "interface \x7b\x7d(nil)"
  | .text bs => Text.quoteBytes bs
  | .flag b => if b then "true" else "false"
  | .integer n => toString n
  | .unsigned n => "0x" ++ hexText n
  | .real x => Decimal.displayText x
  | .list items =>
    "[]interface \x7b\x7d\x7b" ++ ", ".intercalate (Dynamic.itemLiterals items) ++ "\x7d"
  | .map s entries =>
    let sorted := (Dynamic.entryLiterals entries).mergeSort fun a b => !b.1.before a.1
    mapTypeName s ++ "\x7b" ++ ", ".intercalate (sorted.map (·.2)) ++ "\x7d"

/-- The literals of a list's items. -/
def Dynamic.itemLiterals : List Dynamic → List String
  | [] => []
  | v :: rest => v.literal :: Dynamic.itemLiterals rest

/-- Each entry of a map with its key and its literal `key:value`. -/
def Dynamic.entryLiterals : List (Dynamic × Dynamic) → List (Dynamic × String)
  | [] => []
  | (k, v) :: rest => (k, k.literal ++ ":" ++ v.literal) :: Dynamic.entryLiterals rest

end

/-- The entries of a map with `key` set to `value`, replacing an entry with the same key. -/
def putEntry (entries : List (Dynamic × Dynamic)) (key value : Dynamic) :
    List (Dynamic × Dynamic) :=
  if entries.any (·.1.same key) then
    entries.map fun (k, v) => if k.same key then (k, value) else (k, v)
  else entries ++ [(key, value)]

end TurnRelay.Yaml
