import TurnRelay.Yaml.Timestamp
import TurnRelay.Decimal.Shortest

/-!
# Resolving scalars

A plain scalar's type is read off its text. Some texts are fixed: `true`, `false` (in three
spellings each), the null spellings (`~`, `null`, the empty text), `.nan` and the infinities,
and `<<`, the merge key. A text starting with a digit or a sign may be a timestamp, an integer
(decimal, or with a prefix `0b`, `0o`, `0x`, or a leading `0` for octal, with `_` passed over),
an unsigned integer beyond the signed 64-bit range, or a decimal float. Everything else is a
string. A tag asks for one type: a text that resolves to another is refused, except that an
integer may be a float.

Tags are written short: `!!int` for `tag:yaml.org,2002:int`.

## Main definitions

* `shortTag`, the tag constants.
* `Resolved`, `resolve`.
-/

namespace TurnRelay.Yaml

/-- The prefix of the standard tags. -/
def longTagPrefix : String := "tag:yaml.org,2002:"

/-- A tag in short form: `!!name` for a standard tag. -/
def shortTag (tag : String) : String :=
  if tag.startsWith longTagPrefix then "!!" ++ (tag.drop longTagPrefix.length).toString else tag

/-- The tag of null. -/
def nullTag : String := "!!null"
/-- The tag of booleans. -/
def boolTag : String := "!!bool"
/-- The tag of strings. -/
def strTag : String := "!!str"
/-- The tag of integers. -/
def intTag : String := "!!int"
/-- The tag of floats. -/
def floatTag : String := "!!float"
/-- The tag of timestamps. -/
def timestampTag : String := "!!timestamp"
/-- The tag of sequences. -/
def seqTag : String := "!!seq"
/-- The tag of mappings. -/
def mapTag : String := "!!map"
/-- The tag of base64 binary data. -/
def binaryTag : String := "!!binary"
/-- The tag of the merge key. -/
def mergeTag : String := "!!merge"

/-- What a scalar stands for. -/
inductive Resolved where
  | null
  | bool (b : Bool)
  /-- An integer in the signed 64-bit range. -/
  | int (n : Int)
  /-- An integer beyond the signed and within the unsigned 64-bit range. -/
  | uint (n : Nat)
  | float (x : Float)
  | timestamp
  | str (s : String)
  deriving Inhabited

/-- The tags whose texts are resolved. -/
def isResolvable (tag : String) : Bool :=
  tag == "" || tag == strTag || tag == boolTag || tag == intTag || tag == floatTag ||
    tag == timestampTag || tag == nullTag

/-- The texts with a fixed meaning. -/
def fixedScalar (s : String) : Option (String × Resolved) :=
  if s == "true" || s == "True" || s == "TRUE" then some (boolTag, .bool true)
  else if s == "false" || s == "False" || s == "FALSE" then some (boolTag, .bool false)
  else if s == "" || s == "~" || s == "null" || s == "Null" || s == "NULL" then some (nullTag, .null)
  else if s == ".nan" || s == ".NaN" || s == ".NAN" then some (floatTag, .float (0 / 0))
  else if s == ".inf" || s == ".Inf" || s == ".INF" || s == "+.inf" || s == "+.Inf" ||
      s == "+.INF" then some (floatTag, .float (1 / 0))
  else if s == "-.inf" || s == "-.Inf" || s == "-.INF" then some (floatTag, .float (-1 / 0))
  else if s == "<<" then some (mergeTag, .str "<<")
  else none

/-- How the first character hints at a type: `S` a sign, `D` a digit, `M` a letter that may
start a fixed text, `.` a point; none for a plain string. -/
def hint (s : String) : Option Char :=
  match s.toList.head? with
  | none => some 'N'
  | some c =>
    if c == '+' || c == '-' then some 'S'
    else if c.isDigit then some 'D'
    else if "yYnNtTfFoO~".contains c then some 'M'
    else if c == '.' then some '.'
    else none

/-- The value of a digit in bases up to 36. -/
def digitValue (c : Char) : Option Nat :=
  if c.isDigit then some (c.toNat - '0'.toNat)
  else if 'a' ≤ c.toLower && c.toLower ≤ 'z' then some (c.toLower.toNat - 'a'.toNat + 10)
  else none

/-- The value of digits in a base; none if one is not a digit of the base. -/
def digitsIn (base : Nat) (ds : List Char) : Option Nat :=
  ds.foldlM (fun acc c => do
    let d ← digitValue c
    if d < base then some (acc * base + d) else none) 0

/-- Reads an unsigned integer whose base a prefix gives (`0b`, `0o`, `0x`, or a leading `0`
for octal); none when malformed or beyond 64 bits. -/
def unsignedValue? (cs : List Char) : Option Nat := do
  if cs.isEmpty then none
  let (base, ds) :=
    match cs with
    | '0' :: p :: d :: rest =>
      if p.toLower == 'b' then (2, d :: rest)
      else if p.toLower == 'o' then (8, d :: rest)
      else if p.toLower == 'x' then (16, d :: rest)
      else (8, p :: d :: rest)
    | '0' :: rest => (8, rest)
    | _ => (10, cs)
  let n ← digitsIn base ds
  if n < Nat.pow 2 64 then some n else none

/-- Reads a signed integer with an optional sign and a base prefix; none when malformed or
beyond the signed 64-bit range. -/
def integerValue? (cs : List Char) : Option Int := do
  if cs.isEmpty then none
  let (neg, body) :=
    match cs with
    | '+' :: rest => (false, rest)
    | '-' :: rest => (true, rest)
    | _ => (false, cs)
  let n ← unsignedValue? body
  if neg then (if n > Nat.pow 2 63 then none else some (-(n : Int)))
  else if n ≥ Nat.pow 2 63 then none else some n

/-- Reads a signed integer in a fixed base, an optional sign and then digits; none when malformed
or beyond the signed 64-bit range. -/
def signedIn (base : Nat) (cs : List Char) : Option Int := do
  let (neg, ds) :=
    match cs with
    | '+' :: rest => (false, rest)
    | '-' :: rest => (true, rest)
    | _ => (false, cs)
  if ds.isEmpty then none
  let n ← digitsIn base ds
  if neg then (if n > Nat.pow 2 63 then none else some (-(n : Int)))
  else if n ≥ Nat.pow 2 63 then none else some n

/-- Reads unsigned digits in a fixed base; none when malformed or beyond 64 bits. -/
def unsignedIn (base : Nat) (ds : List Char) : Option Nat := do
  if ds.isEmpty then none
  let n ← digitsIn base ds
  if n < Nat.pow 2 64 then some n else none

/-- The last reading of a binary or octal text, which lets a sign follow the prefix: `0b` or `0o`
and then a signed or unsigned number, or `-0b` or `-0o` and then digits read as negative. -/
def prefixedValue? (cs : List Char) : Option Resolved :=
  let signedOrUnsigned (base : Nat) (ds : List Char) : Option Resolved :=
    match signedIn base ds with
    | some n => some (.int n)
    | none => (unsignedIn base ds).map .uint
  match cs with
  | '0' :: 'b' :: rest => signedOrUnsigned 2 rest
  | '-' :: '0' :: 'b' :: rest => (signedIn 2 ('-' :: rest)).map .int
  | '0' :: 'o' :: rest => signedOrUnsigned 8 rest
  | '-' :: '0' :: 'o' :: rest => (signedIn 8 ('-' :: rest)).map .int
  | _ => none

/-- The digits of a decimal number: sign, digits of the integer part, of the fraction, and the
exponent. -/
structure DecimalText where
  neg : Bool
  whole : List Char
  fraction : List Char
  exponent : Int

/-- Reads an exponent: `e` or `E`, a sign, digits. -/
def exponentPart : List Char → Option Int
  | [] => some 0
  | e :: rest =>
    if e != 'e' && e != 'E' then none
    else
      let (neg, ds) :=
        match rest with
        | '+' :: r => (false, r)
        | '-' :: r => (true, r)
        | r => (false, r)
      if ds.isEmpty || !ds.all Char.isDigit then none
      else
        let v : Int := ds.foldl (fun v d => v * 10 + (d.toNat - 48)) 0
        some (if neg then -v else v)

/-- Reads the decimal floats of YAML: `[-+]?(\.[0-9]+|[0-9]+(\.[0-9]*)?)([eE][-+]?[0-9]+)?`. -/
def decimalText? (cs : List Char) : Option DecimalText := do
  let (neg, body) :=
    match cs with
    | '+' :: rest => (false, rest)
    | '-' :: rest => (true, rest)
    | _ => (false, cs)
  let whole := body.takeWhile Char.isDigit
  let rest := body.drop whole.length
  let (fraction, rest) ←
    match rest with
    | '.' :: r =>
      let f := r.takeWhile Char.isDigit
      if whole.isEmpty && f.isEmpty then none
      some (f, r.drop f.length)
    | r => if whole.isEmpty then none else some ([], r)
  let exponent ← exponentPart rest
  return ⟨neg, whole, fraction, exponent⟩

/-- The double nearest to a decimal number. -/
def DecimalText.value (d : DecimalText) : Float :=
  let digits := d.whole ++ d.fraction
  Decimal.scientific d.neg (digits.foldl (fun v c => v * 10 + (c.toNat - 48)) 0)
    (d.exponent - d.fraction.length)

/-- Whether underscores only stand between digits. -/
def underscoresBetweenDigits (cs : List Char) : Bool :=
  let last := cs.foldl (fun (saw : Option Char) c =>
    match saw with
    | none => none
    | some s =>
      if c.isDigit then some '0'
      else if c == '_' then (if s == '0' then some '_' else none)
      else if s == '_' then none
      else some '!') (some '^')
  match last with
  | some s => s != '_'
  | none => false

/-- A float written from its point: `.5`, `.25e3`, with `_` allowed between digits of the
fraction and the exponent. -/
def pointFloat? (s : String) : Option Float := do
  let cs := s.toList
  match cs with
  | '.' :: rest =>
    let frac := rest.takeWhile fun c => c.isDigit || c == '_'
    let after := rest.drop frac.length
    if !frac.any Char.isDigit then none
    let expOk :=
      match after with
      | [] => true
      | e :: r =>
        (e == 'e' || e == 'E') &&
          (match r with
           | '+' :: d :: more | '-' :: d :: more | d :: more =>
             d.isDigit && more.all fun c => c.isDigit || c == '_'
           | [] => false)
    if !expOk || !underscoresBetweenDigits cs then none
    let d ← decimalText? (cs.filter (· != '_'))
    let x := d.value
    if x.isInf then none else some x
  | _ => none

/-- A float in YAML's decimal form that does not overflow. -/
def yamlFloat? (cs : List Char) : Option Float := do
  let d ← decimalText? cs
  let x := d.value
  if x.isInf then none else some x

/-- What a text resolves to when its tag allows resolution. -/
def resolveText (tag text : String) : String × Resolved :=
  match hint text with
  | none => (strTag, .str text)
  | some h =>
    if tag == strTag || tag == binaryTag then (strTag, .str text)
    else
      match fixedScalar text with
      | some r => r
      | none =>
        if h == '.' then
          match pointFloat? text with
          | some x => (floatTag, .float x)
          | none => (strTag, .str text)
        else if h == 'D' || h == 'S' then
          if (tag == "" || tag == timestampTag) && isTimestamp text then (timestampTag, .timestamp)
          else
            let plain := text.toList.filter (· != '_')
            match integerValue? plain with
            | some n => (intTag, .int n)
            | none =>
              match unsignedValue? plain with
              | some n => (intTag, .uint n)
              | none =>
                match yamlFloat? plain with
                | some x => (floatTag, .float x)
                | none =>
                  match prefixedValue? plain with
                  | some r => (intTag, r)
                  | none => (strTag, .str text)
        else (strTag, .str text)

/-- The wording of a text that does not have the type its tag asks for. -/
def tagMismatch (rtag text tag : String) : String :=
  "cannot decode " ++ shortTag rtag ++ " `" ++ text ++ "` as a " ++ shortTag tag

/-- Resolves a scalar under its tag: the resolved tag and value, or why the text does not have
the type the tag asks for. -/
def resolve (tag text : String) : Except String (String × Resolved) :=
  let tag := shortTag tag
  if !isResolvable tag then .ok (tag, .str text)
  else
    let (rtag, v) := resolveText tag text
    if tag == "" || tag == rtag || tag == strTag || tag == binaryTag then .ok (rtag, v)
    else if tag == floatTag && rtag == intTag then
      match v with
      | .int n => .ok (floatTag, .float (Float.ofInt n))
      | _ => .error (tagMismatch rtag text tag)
    else .error (tagMismatch rtag text tag)

end TurnRelay.Yaml
