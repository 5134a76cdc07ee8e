import TurnRelay.Yaml.Node.Compose
import TurnRelay.Yaml.Dynamic
import TurnRelay.Decimal.Duration
import TurnRelay.Decimal.Integer
import TurnRelay.Text.Base64
import TurnRelay.Text.Utf8

/-!
# Decoding documents into typed values

A document is read against a `Shape`: strings, integers, booleans, durations, lists of strings,
and records of named fields. Reading gives the assignments it makes, each a path of field names
and a value, in document order; a value later on the same path wins.

What does not fit is told and passed over, and reading goes on: a scalar of the wrong type, a
collection where a scalar belongs, and a key given twice in one mapping (then that mapping is
skipped). Some things stop the reading at once: a tag that its text does not fit, bad base64
under `!!binary`, an alias met again inside what it stands for, a merge (`<<`) of something
other than mappings, and a document that expands aliases far more than it has nodes.

* A null gives an empty list, and leaves anything else as it was.
* A string takes any scalar's text, and under `!!binary` the bytes it encodes.
* An integer takes an integer, or a float truncated toward zero (one beyond the 64-bit range
  gives the least 64-bit value).
* A duration takes only a string in duration syntax.
* A boolean takes a boolean, or `y`, `yes`, `on`, `n`, `no`, `off` in their usual spellings.
* A list takes a sequence; the items that do not fit are left out.
* A record takes a mapping: keys are read as strings, unknown keys are passed over. A merge key
  reads the mappings it names (the last merge key's, if there are several) into the same record
  once the mapping's own keys are read, in order; a key that the mapping or a mapping merged
  before has given is passed over, so that what a mapping says itself always wins.

To know which keys a merge may no longer set, every key of the merging mapping is read once
more as a value of any type (a `Dynamic`), so what reading a key tells or stops at happens a
second time. A list or map among those keys cannot be held in that set, and stops the reading.
A key read as a value of any type reads its own entries too: a key of its own that is a list
or map stops the reading as an invalid map key.

## Main definitions

* `Shape`, `Leaf`, `Assignment`.
* `decodeDocument`, `decodeBytes`.
-/

namespace TurnRelay.Yaml

/-- The kinds of value a document is read into. -/
inductive Shape where
  | text
  | integer
  | flag
  | duration
  | textList
  /-- A record: its type's name and its fields. -/
  | record (typeName : String) (fields : List (String × Shape))
  deriving Inhabited

/-- The name a kind of value is reported by. -/
def Shape.typeName : Shape → String
  | .text => "string"
  | .integer => "int"
  | .flag => "bool"
  | .duration => "time.Duration"
  | .textList => "[]string"
  | .record n _ => n

/-- Byte strings compare by core's equality, as in the settings. -/
local instance coreByteArrayEq : DecidableEq ByteArray := ByteArray.instDecidableEq

/-- A value read into a field. Strings are bytes: `!!binary` may give any. -/
inductive Leaf where
  | text (bytes : ByteArray)
  | integer (n : Int)
  | flag (b : Bool)
  /-- Nanoseconds. -/
  | duration (ns : Int)
  /-- A list, or none for a null. -/
  | textList (items : Option (List ByteArray))
  deriving Inhabited, DecidableEq

/-- A value and the path of field names it goes to. -/
abbrev Assignment := List String × Leaf

/-- What reading keeps track of: the misfits told so far, the aliases being followed, and how
many nodes were read, in all and through aliases. -/
structure DecodeState where
  mismatches : Array ByteArray := #[]
  active : List Nat := []
  decodes : Nat := 0
  aliasDecodes : Nat := 0
  aliasDepth : Nat := 0
  /-- While the mappings of a merge are read: the keys that may no longer be set. -/
  merged : Option (List Dynamic) := none
  deriving Inhabited

/-- Reading: a step that may tell misfits or stop with a failure. -/
abbrev DecodeM := StateT DecodeState (Except String)

/-- The share of reads that may come through aliases: 99% up to 400000 reads, falling to 10%
at 4000000. -/
def allowedAliasRatio (decodes : Nat) : Float :=
  if decodes ≤ 400000 then 0.99
  else if decodes ≥ 4000000 then 0.10
  else 0.99 - 0.89 * (Float.ofNat (decodes - 400000) / Float.ofNat (4000000 - 400000))

/-- Counts one node read, and stops a document that expands aliases too much. -/
def enter : DecodeM Unit := do
  let d ← get
  let d := { d with decodes := d.decodes + 1,
                    aliasDecodes :=
                      if d.aliasDepth > 0 then d.aliasDecodes + 1 else d.aliasDecodes }
  set d
  if d.aliasDecodes > 100 && d.decodes > 1000 &&
      Float.ofNat d.aliasDecodes / Float.ofNat d.decodes > allowedAliasRatio d.decodes then
    throw "document contains excessive aliasing"

/-- The text of a node that a misfit shows: a scalar's text or an alias's name. -/
def Node.shownText : Node → String
  | .scalar _ text _ _ => text
  | .alias _ name _ _ => name
  | _ => ""

/-- The report of a node that does not fit a kind of value; `tag` is used when the node has
none. Texts over ten bytes are cut to seven. -/
def mismatchText (n : Node) (tag : String) (target : String) : ByteArray :=
  let tag := if n.tag != "" then n.tag else tag
  let value := n.shownText.toUTF8
  let shown :=
    if tag == seqTag || tag == mapTag then value
    else if value.size > 10 then " `".toUTF8 ++ value.extract 0 7 ++ "...`".toUTF8
    else " `".toUTF8 ++ value ++ "`".toUTF8
  ("line " ++ toString n.line ++ ": cannot unmarshal " ++ shortTag tag).toUTF8 ++ shown ++
    (" into " ++ target).toUTF8

/-- Tells a misfit. -/
def tell (report : ByteArray) : DecodeM Unit :=
  modify fun d => { d with mismatches := d.mismatches.push report }

/-- Tells that a node does not fit a kind of value. -/
def mismatch {α : Type} (n : Node) (tag : String) (shape : Shape) : DecodeM (Option α) := do
  tell (mismatchText n tag shape.typeName)
  return none

/-- Whether a scalar is a string by its form: tagged `!!str`, or quoted or a block without a
tag of its own. -/
def isIndicatedString (tag : String) (style : ScalarStyle) : Bool :=
  shortTag tag == strTag || ((tag == "" || tag == "!") && style.isIndicated)

/-- A float as a 64-bit integer, truncated toward zero; one outside the range, or not finite,
gives the least 64-bit value. -/
def truncateToWord (x : Float) : Int :=
  match Decimal.Binary.ofFloat x with
  | (_, none) => if x == 0 then 0 else Decimal.wordMin
  | (neg, some b) =>
    let mag : Nat :=
      if b.exponent ≥ 0 then b.mantissa * Nat.pow 2 b.exponent.toNat
      else b.mantissa / Nat.pow 2 b.exponent.natAbs
    let v : Int := if neg then -(mag : Int) else mag
    if v < Decimal.wordMin || v > Decimal.wordMax then Decimal.wordMin else v

/-- The spellings a boolean may also take as a string. -/
def flagWord (s : String) : Option Bool :=
  if ["y", "Y", "yes", "Yes", "YES", "on", "On", "ON"].contains s then some true
  else if ["n", "N", "no", "No", "NO", "off", "Off", "OFF"].contains s then some false
  else none

/-- Reads a scalar into a kind of value. -/
def decodeScalar (n : Node) (tag text : String) (style : ScalarStyle) (shape : Shape) :
    DecodeM (Option Leaf) := do
  let (rtag, resolved) ←
    if isIndicatedString tag style then pure (strTag, Resolved.str text)
    else
      match resolve tag text with
      | .ok r => pure r
      | .error m => throw m
  let (resolved, binary) ←
    if rtag == binaryTag then
      match resolved with
      | .str s =>
        match Base64.decode? s with
        | some bytes => pure (Resolved.str (Utf8.decodeLossy bytes), some bytes)
        | none => throw "!!binary value contains invalid base64 data"
      | r => pure (r, none)
    else pure (resolved, none)
  match resolved, shape with
  | .null, .textList => return some (.textList none)
  | .null, _ => return none
  | _, .text => return some (.text (binary.getD text.toUTF8))
  | .int v, .integer => return some (.integer v)
  | .float x, .integer =>
    if x ≤ 9223372036854775808.0 then return some (.integer (truncateToWord x))
    else mismatch n rtag shape
  | .str s, .duration =>
    match Decimal.parseDuration s with
    | .ok ns => return some (.duration ns)
    | .error _ => mismatch n rtag shape
  | .bool b, .flag => return some (.flag b)
  | .str s, .flag =>
    match flagWord s with
    | some b => return some (.flag b)
    | none => mismatch n rtag shape
  | _, _ => mismatch n rtag shape

/-- Tells the keys of a mapping given twice; says whether there were any. -/
def duplicateKeys (entries : List (Node × Node)) : DecodeM Bool := do
  let keys := entries.map (·.1)
  let reports := (keys.zipIdx.map fun (ki, i) =>
    (keys.drop (i + 1)).filterMap fun kj =>
      if ki.keyIdentity == kj.keyIdentity then
        some ("line " ++ toString kj.line ++ ": mapping key " ++ Text.quote kj.shownText ++
          " already defined at line " ++ toString ki.line).toUTF8
      else none).flatten
  for r in reports do tell r
  return !reports.isEmpty

/-- Whether a key is the merge key `<<`. -/
def isMergeKey : Node → Bool
  | .scalar tag text _ _ => text == "<<" && (tag == "" || tag == "!" || shortTag tag == mergeTag)
  | _ => false

/-- The failure of a merge of something other than mappings. -/
def mergeFailure : String := "map merge requires map or sequence of maps as the value"

/-- Whether a node may be merged: a mapping, or an alias of one. -/
def isMergeable (anchored : Array Node) : Node → Bool
  | .mapping _ _ _ => true
  | .alias _ _ target _ =>
    match anchored[target]? with
    | some (.mapping _ _ _) => true
    | some _ => false
    | none => true
  | _ => false

/-- The tag a node that is not an alias is known by: its own, a collection's kind when it has
none, and for a plain scalar the tag its text resolves to. -/
def Node.ownTag : Node → String
  | .scalar tag text style _ =>
    if isIndicatedString tag style then strTag
    else if tag == "" || tag == "!" then
      match resolve "" text with
      | .ok (t, _) => t
      | .error _ => strTag
    else shortTag tag
  | .sequence tag _ _ => if tag == "" || tag == "!" then seqTag else shortTag tag
  | .mapping tag _ _ => if tag == "" || tag == "!" then mapTag else shortTag tag
  | .alias _ _ _ _ => ""

/-- The tag a node is known by; an alias is known by the tag of the node it stands for. -/
def Node.knownTag (anchored : Array Node) : Node → String
  | .alias _ _ target _ => (anchored.getD target default).ownTag
  | n => n.ownTag

/-- A scalar read as a value of any type; a timestamp stays its text. -/
def scalarValue (tag text : String) (style : ScalarStyle) : DecodeM Dynamic := do
  if isIndicatedString tag style then return .text text.toUTF8
  let (rtag, resolved) ←
    match resolve tag text with
    | .ok r => pure r
    | .error m => throw m
  if rtag == binaryTag then
    if let .str s := resolved then
      match Base64.decode? s with
      | some bytes => return .text bytes
      | none => throw "!!binary value contains invalid base64 data"
  match resolved with
  | .null => return .null
  | .bool b => return .flag b
  | .int n => return .integer n
  | .uint n => return .unsigned n
  | .float x => return .real x
  | .timestamp => return .text text.toUTF8
  | .str s => return .text s.toUTF8

/-- The failure of a list or map looked up in the set of keys a merge may not set. -/
def unhashableFailure (k : Dynamic) : String :=
  "runtime error: hash of unhashable type " ++ k.typeName

/-- Whether the set of keys a merge may not set holds a key. -/
def mergedHolds (set : List Dynamic) (k : Dynamic) : DecodeM Bool := do
  if !k.hashable then throw (unhashableFailure k)
  return set.any (·.same k)

/-- The set of keys a merge may not set, with one more. -/
def mergedWith (set : List Dynamic) (k : Dynamic) : DecodeM (List Dynamic) := do
  if !k.hashable then throw (unhashableFailure k)
  return if set.any (·.same k) then set else k :: set

mutual

/-- Reads a node as a value of any type: none when it cannot be read, as a mapping with a key
given twice (or an alias of one) cannot. -/
def decodeAny (anchored : Array Node) : Nat → Node → DecodeM (Option Dynamic)
  | 0, _ => throw "document nested too deeply"
  | fuel + 1, node => do
    enter
    match node with
    | .alias id name target _ =>
      if (← get).active.contains id then throw ("anchor '" ++ name ++ "' value contains itself")
      modify fun d => { d with active := id :: d.active, aliasDepth := d.aliasDepth + 1 }
      let r ← decodeAny anchored fuel (anchored.getD target default)
      modify fun d => { d with active := d.active.erase id, aliasDepth := d.aliasDepth - 1 }
      return r
    | .scalar tag text style _ => return some (← scalarValue tag text style)
    | .sequence _ items _ => return some (.list (← decodeAnyItems anchored fuel items []))
    | .mapping _ entries _ =>
      if ← duplicateKeys entries then return none
      let stringKeys := entries.all fun (k, _) =>
        k.knownTag anchored == strTag || k.knownTag anchored == mergeTag
      return some (.map stringKeys (← fillMap anchored fuel stringKeys entries []))

/-- Reads the items of a sequence as values of any type, leaving out those that cannot be read. -/
def decodeAnyItems (anchored : Array Node) : Nat → List Node → List Dynamic →
    DecodeM (List Dynamic)
  | 0, _, acc => pure acc.reverse
  | _, [], acc => pure acc.reverse
  | fuel + 1, item :: rest, acc => do
    match ← decodeAny anchored fuel item with
    | some v => decodeAnyItems anchored fuel rest (v :: acc)
    | none => decodeAnyItems anchored fuel rest acc

/-- Reads a key of a map whose keys are strings: a scalar's text, or under `!!binary` the bytes
it encodes. A null cannot be read; a collection is told as a misfit. -/
def decodeKeyText (anchored : Array Node) : Nat → Node → DecodeM (Option Dynamic)
  | 0, _ => throw "document nested too deeply"
  | fuel + 1, node => do
    enter
    match node with
    | .alias id name target _ =>
      if (← get).active.contains id then throw ("anchor '" ++ name ++ "' value contains itself")
      modify fun d => { d with active := id :: d.active, aliasDepth := d.aliasDepth + 1 }
      let r ← decodeKeyText anchored fuel (anchored.getD target default)
      modify fun d => { d with active := d.active.erase id, aliasDepth := d.aliasDepth - 1 }
      return r
    | .scalar tag text style _ =>
      match ← decodeScalar node tag text style .text with
      | some (.text bs) => return some (.text bs)
      | _ => return none
    | .sequence _ _ _ => mismatch node seqTag .text
    | .mapping _ entries _ =>
      if ← duplicateKeys entries then return none
      mismatch node mapTag .text

/-- Reads the entries of a mapping into a map that holds `acc` already, then what its merge key
names. -/
def fillMap (anchored : Array Node) : Nat → Bool → List (Node × Node) →
    List (Dynamic × Dynamic) → DecodeM (List (Dynamic × Dynamic))
  | 0, _, _, acc => pure acc
  | fuel + 1, stringKeys, entries, acc => do
    let outer := (← get).merged
    modify fun d => { d with merged := none }
    let (acc, seen, mergeValue) ← fillEntries anchored fuel stringKeys entries outer acc none
    modify fun d => { d with merged := seen }
    match mergeValue with
    | some v => mergeIntoMap anchored fuel stringKeys entries v acc
    | none => return acc

/-- Reads the entries of a mapping into a map in order. `seen` holds the keys that may no longer
be set, while the mapping is one a merge reads; the value of the last merge key is kept for
after the entries. A key that is a list or map is refused. -/
def fillEntries (anchored : Array Node) : Nat → Bool → List (Node × Node) →
    Option (List Dynamic) → List (Dynamic × Dynamic) → Option Node →
    DecodeM (List (Dynamic × Dynamic) × Option (List Dynamic) × Option Node)
  | 0, _, _, seen, acc, m => pure (acc, seen, m)
  | _, _, [], seen, acc, m => pure (acc, seen, m)
  | fuel + 1, stringKeys, (k, v) :: rest, seen, acc, m => do
    if isMergeKey k then fillEntries anchored fuel stringKeys rest seen acc (some v)
    else
      let key? ← if stringKeys then decodeKeyText anchored fuel k else decodeAny anchored fuel k
      match key? with
      | none => fillEntries anchored fuel stringKeys rest seen acc m
      | some key =>
        let held ← match seen with
          | some set => mergedHolds set key
          | none => pure false
        if held then fillEntries anchored fuel stringKeys rest seen acc m
        else
          let seen ← match seen with
            | some set => some <$> mergedWith set key
            | none => pure none
          if !key.hashable then throw ("invalid map key: " ++ key.literal)
          let value? ← decodeAny anchored fuel v
          let acc := match value? with
            | some value => putEntry acc key value
            | none =>
              if v.knownTag anchored == nullTag && !acc.any (·.1.same key) then
                putEntry acc key .null
              else acc
          fillEntries anchored fuel stringKeys rest seen acc m

/-- Reads what a merge key names into a map: a mapping, an alias of one, or a sequence of those,
first to last. The keys of the merging mapping `parent` may not be set by it; an outer merge
already holds the keys that may not. -/
def mergeIntoMap (anchored : Array Node) : Nat → Bool → List (Node × Node) → Node →
    List (Dynamic × Dynamic) → DecodeM (List (Dynamic × Dynamic))
  | 0, _, _, _, acc => pure acc
  | fuel + 1, stringKeys, parent, v, acc => do
    let outer := (← get).merged
    if outer.isNone then startMergeSet anchored fuel parent
    let acc ←
      match v with
      | .sequence _ items _ => mergeItemsIntoMap anchored fuel stringKeys items acc
      | _ => do
        if !isMergeable anchored v then throw mergeFailure
        decodeIntoMap anchored fuel stringKeys v acc
    if outer.isNone then modify fun d => { d with merged := none }
    return acc

/-- Reads the mappings of a merged sequence into a map in turn. -/
def mergeItemsIntoMap (anchored : Array Node) : Nat → Bool → List Node →
    List (Dynamic × Dynamic) → DecodeM (List (Dynamic × Dynamic))
  | 0, _, _, acc => pure acc
  | _, _, [], acc => pure acc
  | fuel + 1, stringKeys, item :: rest, acc => do
    if !isMergeable anchored item then throw mergeFailure
    let acc ← decodeIntoMap anchored fuel stringKeys item acc
    mergeItemsIntoMap anchored fuel stringKeys rest acc

/-- Reads a mapping, or an alias of one, into a map that holds `acc` already. -/
def decodeIntoMap (anchored : Array Node) : Nat → Bool → Node → List (Dynamic × Dynamic) →
    DecodeM (List (Dynamic × Dynamic))
  | 0, _, _, _ => throw "document nested too deeply"
  | fuel + 1, stringKeys, node, acc => do
    enter
    match node with
    | .alias id name target _ =>
      if (← get).active.contains id then throw ("anchor '" ++ name ++ "' value contains itself")
      modify fun d => { d with active := id :: d.active, aliasDepth := d.aliasDepth + 1 }
      let r ← decodeIntoMap anchored fuel stringKeys (anchored.getD target default) acc
      modify fun d => { d with active := d.active.erase id, aliasDepth := d.aliasDepth - 1 }
      return r
    | .mapping _ entries _ =>
      if ← duplicateKeys entries then return acc
      fillMap anchored fuel stringKeys entries acc
    | _ => return acc

/-- Starts the set of keys a merge may not set: the keys of the merging mapping, each read as a
value of any type. -/
def startMergeSet (anchored : Array Node) : Nat → List (Node × Node) → DecodeM Unit
  | 0, _ => pure ()
  | fuel + 1, parent => do
    modify fun d => { d with merged := some [] }
    addMergeKeys anchored fuel parent

/-- Adds the keys of entries to the set of keys a merge may not set. -/
def addMergeKeys (anchored : Array Node) : Nat → List (Node × Node) → DecodeM Unit
  | 0, _ => pure ()
  | _, [] => pure ()
  | fuel + 1, (k, _) :: rest => do
    if let some key ← decodeAny anchored fuel k then
      let set ← mergedWith ((← get).merged.getD []) key
      modify fun d => { d with merged := some set }
    addMergeKeys anchored fuel rest

end

/-- Prefixes the paths of assignments with a field name. -/
def underField (name : String) (as : List Assignment) : List Assignment :=
  as.map fun (p, v) => (name :: p, v)

mutual

/-- Reads a node into a kind of value: the assignments made, or none when it does not fit. -/
def decodeNode (anchored : Array Node) : Nat → Node → Shape →
    DecodeM (Option (List Assignment))
  | 0, _, _ => throw "document nested too deeply"
  | fuel + 1, node, shape => do
    enter
    match node with
    | .alias id name target _ =>
      if (← get).active.contains id then throw ("anchor '" ++ name ++ "' value contains itself")
      modify fun d => { d with active := id :: d.active, aliasDepth := d.aliasDepth + 1 }
      let r ← decodeNode anchored fuel (anchored.getD target default) shape
      modify fun d => { d with active := d.active.erase id, aliasDepth := d.aliasDepth - 1 }
      return r
    | .scalar tag text style _ =>
      return (← decodeScalar node tag text style shape).map fun l => [([], l)]
    | .sequence _ items _ =>
      match shape with
      | .textList =>
        let texts ← decodeTexts anchored fuel items []
        return some [([], .textList (some texts))]
      | _ => mismatch node seqTag shape
    | .mapping _ entries _ =>
      if ← duplicateKeys entries then return none
      match shape with
      | .record typeName fields =>
        return some (← decodeFields anchored fuel typeName fields entries)
      | _ => mismatch node mapTag shape

/-- Reads the items of a sequence as strings, leaving out those that are not. -/
def decodeTexts (anchored : Array Node) : Nat → List Node → List ByteArray →
    DecodeM (List ByteArray)
  | 0, _, acc => pure acc.reverse
  | _, [], acc => pure acc.reverse
  | fuel + 1, item :: rest, acc => do
    match ← decodeNode anchored fuel item .text with
    | some [([], .text s)] => decodeTexts anchored fuel rest (s :: acc)
    | _ => decodeTexts anchored fuel rest acc

/-- Reads the entries of a mapping into the fields of a record, then what its merge key names. -/
def decodeFields (anchored : Array Node) : Nat → String → List (String × Shape) →
    List (Node × Node) → DecodeM (List Assignment)
  | 0, _, _, _ => pure []
  | fuel + 1, typeName, fields, entries => do
    let outer := (← get).merged
    modify fun d => { d with merged := none }
    let (acc, seen, mergeValue) ←
      decodeEntries anchored fuel typeName fields entries outer [] [] none
    modify fun d => { d with merged := seen }
    match mergeValue with
    | some v => return acc ++ (← decodeMerge anchored fuel (.record typeName fields) entries v)
    | none => return acc

/-- Reads the entries of a mapping in order. `seen` holds the keys that may no longer be set,
while the mapping is one a merge reads; `done` the fields set so far, which may not be set again;
the value of the last merge key is kept for after the entries. -/
def decodeEntries (anchored : Array Node) : Nat → String → List (String × Shape) →
    List (Node × Node) → Option (List Dynamic) → List String → List Assignment →
    Option Node →
    DecodeM (List Assignment × Option (List Dynamic) × Option Node)
  | 0, _, _, _, seen, _, acc, m => pure (acc, seen, m)
  | _, _, _, [], seen, _, acc, m => pure (acc, seen, m)
  | fuel + 1, typeName, fields, (k, v) :: rest, seen, done, acc, m => do
    if isMergeKey k then decodeEntries anchored fuel typeName fields rest seen done acc (some v)
    else
      match ← decodeNode anchored fuel k .text with
      | some [([], .text name)] =>
        if (seen.map (·.any (·.same (.text name)))).getD false then
          decodeEntries anchored fuel typeName fields rest seen done acc m
        else
          let seen := seen.map (.text name :: ·)
          match fields.find? (·.1.toUTF8 == name) with
          | some (fieldName, fieldShape) =>
            if done.contains fieldName then
              tell ("line " ++ toString k.line ++ ": field " ++ fieldName ++
                " already set in type " ++ typeName).toUTF8
              decodeEntries anchored fuel typeName fields rest seen done acc m
            else
              let r ← decodeNode anchored fuel v fieldShape
              decodeEntries anchored fuel typeName fields rest seen (fieldName :: done)
                (acc ++ underField fieldName (r.getD [])) m
          | none => decodeEntries anchored fuel typeName fields rest seen done acc m
      | _ => decodeEntries anchored fuel typeName fields rest seen done acc m

/-- Reads the value of a merge key into a record: a mapping, an alias of one, or a sequence of
those, first to last. The keys of the merging mapping `parent` may not be set by it; an outer
merge already holds them. -/
def decodeMerge (anchored : Array Node) : Nat → Shape → List (Node × Node) → Node →
    DecodeM (List Assignment)
  | 0, _, _, _ => pure []
  | fuel + 1, shape, parent, v => do
    let outer := (← get).merged
    if outer.isNone then startMergeSet anchored fuel parent
    let r ←
      match v with
      | .sequence _ items _ => decodeMergeList anchored fuel shape items []
      | _ => do
        if !isMergeable anchored v then throw mergeFailure
        pure ((← decodeNode anchored fuel v shape).getD [])
    if outer.isNone then modify fun d => { d with merged := none }
    return r

/-- Reads the mappings of a merged sequence in turn. -/
def decodeMergeList (anchored : Array Node) : Nat → Shape → List Node → List Assignment →
    DecodeM (List Assignment)
  | 0, _, _, acc => pure acc
  | _, _, [], acc => pure acc
  | fuel + 1, shape, item :: rest, acc => do
    if !isMergeable anchored item then throw mergeFailure
    let r ← decodeNode anchored fuel item shape
    decodeMergeList anchored fuel shape rest (acc ++ r.getD [])

end

/-- Reads a document into a kind of value: its assignments, or the misfits told, or why reading
stopped. -/
def decodeDocument (doc : Document) (shape : Shape) (fuel : Nat) :
    Except DecodeError (List Assignment) :=
  let run : DecodeM (Option (List Assignment)) := do
    enter
    decodeNode doc.anchored fuel doc.root shape
  match run.run {} with
  | .error m => .error (.failure m)
  | .ok (r, st) =>
    if st.mismatches.isEmpty then .ok (r.getD []) else .error (.mismatches st.mismatches.toList)

/-- Reads a YAML stream's bytes into a kind of value; an empty stream makes no assignments. -/
def decodeBytes (bytes : ByteArray) (shape : Shape) : Except DecodeError (List Assignment) :=
  match readDocument bytes with
  | .error e => .error e
  | .ok none => .ok []
  | .ok (some doc) => decodeDocument doc shape (8 * (bytes.size + 16))

end TurnRelay.Yaml
