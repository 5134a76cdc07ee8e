import TurnRelay.Text.Quote

/-!
# JSON documents

A JSON text (RFC 8259) is read into a `Node` tree that remembers, for every value, the span of
source bytes it came from, so that a value can be passed on byte for byte as well as inspected.
Strings are decoded on the way: escapes are resolved, an escaped surrogate that is not half of a
pair and every byte outside well-formed UTF-8 become U+FFFD.

The reader is strict about the grammar and lenient about text:

* whitespace is space, tab, line feed and carriage return;
* duplicate object names are kept in order (consumers decide which one counts);
* invalid UTF-8 inside strings is accepted;
* containers nest at most `maxDepth` deep;
* nothing but whitespace may follow the value.

A refused text yields a `SyntaxError`; `SyntaxError.message` is its wording, which names the
offending character and where in the grammar it stood.

## Main definitions

* `Json.parse` reads a whole document.
* `Node.span`, `Node.kindName` inspect a value.
-/

namespace TurnRelay.Json

/-- The bytes `[start, stop)` of the source a value was read from. -/
structure Span where
  start : Nat
  stop : Nat
  deriving Inhabited, Repr, BEq

/-- A JSON value together with the source span of every part of it. -/
inductive Node where
  | null (span : Span)
  | bool (span : Span) (value : Bool)
  | number (span : Span)
  | string (span : Span) (text : String)
  | array (span : Span) (items : List Node)
  | object (span : Span) (members : List (String × Node))
  deriving Inhabited

/-- The source span of a value. -/
def Node.span : Node → Span
  | .null s | .bool s _ | .number s | .string s _ | .array s _ | .object s _ => s

/-- The word a type-mismatch message uses for a value's kind. -/
def Node.kindName : Node → String
  | .null _ => "null"
  | .bool .. => "bool"
  | .number _ => "number"
  | .string .. => "string"
  | .array .. => "array"
  | .object .. => "object"

/-- The source bytes of a value. -/
def Node.raw (src : ByteArray) (n : Node) : ByteArray :=
  src.extract n.span.start n.span.stop

/-- Containers nest at most this deep. -/
def maxDepth : Nat := 10000

/-- Where in the grammar a character was refused. -/
inductive Place where
  | valueStart
  | nameStart
  | afterName
  | afterMember
  | afterElement
  | afterDocument
  | literal (word : String) (expected : Char)
  | stringBody
  | numberBody
  deriving Inhabited

/-- How a message describes a place. -/
def Place.text : Place → String
  | .valueStart => "looking for beginning of value"
  | .nameStart => "looking for beginning of object key string"
  | .afterName => "after object key"
  | .afterMember => "after object key:value pair"
  | .afterElement => "after array element"
  | .afterDocument => "after top-level value"
  | .literal w c => "in literal " ++ w ++ " (expecting " ++ Text.quoteRune c ++ ")"
  | .stringBody => "in string"
  | .numberBody => "in numeric literal"

/-- Why a text is not a JSON document. -/
inductive SyntaxError where
  /-- The text ends inside a value. -/
  | unexpectedEnd
  /-- A character that the grammar does not allow here, shown quoted. -/
  | invalidCharacter (shown : String) (place : Place)
  /-- A backslash escape that is not one of JSON's. -/
  | invalidEscape (sequence : ByteArray)
  /-- Containers nest deeper than `maxDepth`. -/
  | tooDeep
  deriving Inhabited

/-- Whether an escape sequence must itself be quoted to be shown: it holds a backtick, a space,
a replacement character, an invalid byte or a character that does not print. -/
def escapeNeedsQuoting (seq : ByteArray) : Bool :=
  (Utf8.decodeLossy seq).toList.any fun c =>
    c == '`' || c == '�' || c == ' ' || !Text.isPrintable c

/-- The wording of a syntax error. -/
def SyntaxError.message : SyntaxError → String
  | .unexpectedEnd => "unexpected end of JSON input"
  | .invalidCharacter shown place => "invalid character " ++ shown ++ " " ++ place.text
  | .invalidEscape seq =>
    if escapeNeedsQuoting seq then "invalid escape sequence " ++ Text.quoteBytes seq ++ " in string"
    else "invalid escape sequence `" ++ Utf8.decodeLossy seq ++ "` in string"
  | .tooDeep => "exceeded max depth"

/-- The character starting at byte `i`, quoted for a message; a byte outside UTF-8 shows as
`'\xNN'`. -/
def shownAt (bs : ByteArray) (i : Nat) : String :=
  let r := Utf8.decodeAt bs i
  if r.1 == '�' && r.2 == 1 then
    "'\\x" ++ String.ofList (Nat.toDigits 16 (Utf8.byteAt bs i).toNat) ++ "'"
  else Text.quoteRune r.1

/-- JSON whitespace. -/
@[inline] def isSpace (b : UInt8) : Bool := b == 0x20 || b == 0x09 || b == 0x0A || b == 0x0D

/-- An ASCII digit. -/
@[inline] def isDigitByte (b : UInt8) : Bool := 0x30 ≤ b && b ≤ 0x39

/-- The first offset at or after `i` that is not whitespace. -/
def skipSpace (bs : ByteArray) (i : Nat) : Nat :=
  if i < bs.size then
    if isSpace (Utf8.byteAt bs i) then skipSpace bs (i + 1) else i
  else i
termination_by bs.size - i

/-- The first offset at or after `i` that is not a digit. -/
def skipDigits (bs : ByteArray) (i : Nat) : Nat :=
  if i < bs.size then
    if isDigitByte (Utf8.byteAt bs i) then skipDigits bs (i + 1) else i
  else i
termination_by bs.size - i

/-- The value of a hexadecimal digit. -/
def hexValue (b : UInt8) : Option Nat :=
  if 0x30 ≤ b && b ≤ 0x39 then some (b.toNat - 0x30)
  else if 0x61 ≤ b && b ≤ 0x66 then some (b.toNat - 0x61 + 10)
  else if 0x41 ≤ b && b ≤ 0x46 then some (b.toNat - 0x41 + 10)
  else none

/-- The four hexadecimal digits at `i`, as a number. -/
def hex4 (bs : ByteArray) (i : Nat) : Option Nat := do
  let a ← hexValue (Utf8.byteAt bs i)
  let b ← hexValue (Utf8.byteAt bs (i + 1))
  let c ← hexValue (Utf8.byteAt bs (i + 2))
  let d ← hexValue (Utf8.byteAt bs (i + 3))
  pure (((a * 16 + b) * 16 + c) * 16 + d)

/-- Whether `bs[i:]` could be the start of a `\uXXXX` escape cut off by the end of the text. -/
def isEscapePrefix (bs : ByteArray) (i : Nat) : Bool :=
  (List.range (bs.size - i)).all fun k =>
    let c := Utf8.byteAt bs (i + k)
    if k == 0 then c == 0x5C
    else if k == 1 then c == 0x75
    else if k < 6 then (hexValue c).isSome
    else true

/-- The literal `word` at `i`; the offset after it. -/
def literal (bs : ByteArray) (i : Nat) (word : String) : Except SyntaxError Nat :=
  let w := word.toUTF8
  let rec loop (k : Nat) (fuel : Nat) : Except SyntaxError Nat :=
    match fuel with
    | 0 => .ok (i + k)
    | fuel + 1 =>
      if k ≥ w.size then .ok (i + k)
      else if i + k ≥ bs.size then .error .unexpectedEnd
      else if Utf8.byteAt bs (i + k) == Utf8.byteAt w k then loop (k + 1) fuel
      else .error (.invalidCharacter (shownAt bs (i + k))
        (.literal word (Char.ofNat (Utf8.byteAt w k).toNat)))
  loop 0 w.size

/-- A number starting at `i`; the offset after it. -/
def number (bs : ByteArray) (i : Nat) : Except SyntaxError Nat := do
  let refuse (j : Nat) : Except SyntaxError Nat :=
    .error (.invalidCharacter (shownAt bs j) .numberBody)
  let j := if Utf8.byteAt bs i == 0x2D then i + 1 else i
  if j ≥ bs.size then throw .unexpectedEnd
  let b := Utf8.byteAt bs j
  let j ← if b == 0x30 then pure (j + 1)
    else if isDigitByte b then pure (skipDigits bs (j + 1))
    else refuse j
  let j ←
    if j < bs.size && Utf8.byteAt bs j == 0x2E then
      if j + 1 ≥ bs.size then throw .unexpectedEnd
      else if isDigitByte (Utf8.byteAt bs (j + 1)) then pure (skipDigits bs (j + 2))
      else refuse (j + 1)
    else pure j
  if j < bs.size && (Utf8.byteAt bs j == 0x65 || Utf8.byteAt bs j == 0x45) then
    let k := j + 1
    let k := if k < bs.size && (Utf8.byteAt bs k == 0x2B || Utf8.byteAt bs k == 0x2D) then k + 1
      else k
    if k ≥ bs.size then throw .unexpectedEnd
    else if isDigitByte (Utf8.byteAt bs k) then pure (skipDigits bs (k + 1))
    else refuse k
  else pure j

/-- The character of a `\uXXXX` escape at `i` (its code unit already read as `unit`) and the
offset after it, pairing a high surrogate with a following escaped low surrogate. A surrogate
without its partner is U+FFFD. -/
def escapedUnit (bs : ByteArray) (i unit : Nat) : Char × Nat :=
  let j := i + 6
  if 0xD800 ≤ unit && unit ≤ 0xDBFF then
    if j + 6 ≤ bs.size && Utf8.byteAt bs j == 0x5C && Utf8.byteAt bs (j + 1) == 0x75 then
      match hex4 bs (j + 2) with
      | some low =>
        if 0xDC00 ≤ low && low ≤ 0xDFFF then
          (Char.ofNat (0x10000 + (unit - 0xD800) * 0x400 + (low - 0xDC00)), j + 6)
        else ('�', j)
      | none => ('�', j)
    else ('�', j)
  else if 0xDC00 ≤ unit && unit ≤ 0xDFFF then ('�', j)
  else (Char.ofNat unit, j)

/-- The rest of a string whose body starts at `i`: its decoded text and the offset after the
closing quote. -/
def stringBody (bs : ByteArray) (i : Nat) (acc : String) : Except SyntaxError (String × Nat) :=
  if h : i < bs.size then
    let b := Utf8.byteAt bs i
    if b == 0x22 then .ok (acc, i + 1)
    else if b == 0x5C then
      if i + 1 ≥ bs.size then .error .unexpectedEnd
      else
        let c := Utf8.byteAt bs (i + 1)
        let simple : Option Char :=
          if c == 0x22 then some '"' else if c == 0x5C then some '\\'
          else if c == 0x2F then some '/' else if c == 0x62 then some '\x08'
          else if c == 0x66 then some '\x0c' else if c == 0x6E then some '\n'
          else if c == 0x72 then some '\r' else if c == 0x74 then some '\t' else none
        match simple with
        | some ch => stringBody bs (i + 2) (acc.push ch)
        | none =>
          if c == 0x75 then
            if bs.size < i + 6 then
              if isEscapePrefix bs i then .error .unexpectedEnd
              else .error (.invalidEscape (bs.extract i bs.size))
            else
              match hex4 bs (i + 2) with
              | none => .error (.invalidEscape (bs.extract i (i + 6)))
              | some unit =>
                if hr : (escapedUnit bs i unit).2 > i then
                  have : bs.size - (escapedUnit bs i unit).2 < bs.size - i := by omega
                  stringBody bs (escapedUnit bs i unit).2 (acc.push (escapedUnit bs i unit).1)
                else .ok (acc, i + 6)
          else .error (.invalidEscape (bs.extract i (i + 2)))
    else if b < 0x20 then .error (.invalidCharacter (shownAt bs i) .stringBody)
    else
      have : bs.size - (i + (Utf8.decodeAt bs i).2) < bs.size - i := by
        have := Utf8.decodeAt_width_pos bs i
        omega
      stringBody bs (i + (Utf8.decodeAt bs i).2) (acc.push (Utf8.decodeAt bs i).1)
  else .error .unexpectedEnd
termination_by bs.size - i

mutual

/-- A value starting at `i` (whitespace already skipped) at nesting `depth`; the offset after
it. `fuel` bounds the number of nested calls and is never the reason to stop on a real text. -/
def value (bs : ByteArray) (fuel depth i : Nat) : Except SyntaxError (Node × Nat) :=
  match fuel with
  | 0 => .error .unexpectedEnd
  | fuel + 1 =>
    if i ≥ bs.size then .error .unexpectedEnd
    else
      let b := Utf8.byteAt bs i
      if b == 0x7B then
        if depth + 1 > maxDepth then .error .tooDeep
        else
          let j := skipSpace bs (i + 1)
          if j ≥ bs.size then .error .unexpectedEnd
          else if Utf8.byteAt bs j == 0x7D then .ok (.object ⟨i, j + 1⟩ [], j + 1)
          else members bs fuel (depth + 1) i j #[]
      else if b == 0x5B then
        if depth + 1 > maxDepth then .error .tooDeep
        else
          let j := skipSpace bs (i + 1)
          if j ≥ bs.size then .error .unexpectedEnd
          else if Utf8.byteAt bs j == 0x5D then .ok (.array ⟨i, j + 1⟩ [], j + 1)
          else elements bs fuel (depth + 1) i j #[]
      else if b == 0x22 then
        match stringBody bs (i + 1) "" with
        | .ok (text, j) => .ok (.string ⟨i, j⟩ text, j)
        | .error e => .error e
      else if b == 0x74 then (literal bs i "true").map fun j => (.bool ⟨i, j⟩ true, j)
      else if b == 0x66 then (literal bs i "false").map fun j => (.bool ⟨i, j⟩ false, j)
      else if b == 0x6E then (literal bs i "null").map fun j => (.null ⟨i, j⟩, j)
      else if b == 0x2D || isDigitByte b then (number bs i).map fun j => (.number ⟨i, j⟩, j)
      else .error (.invalidCharacter (shownAt bs i) .valueStart)

/-- The elements of an array opened at `start`, from the element at `i` on. -/
def elements (bs : ByteArray) (fuel depth start i : Nat) (acc : Array Node) :
    Except SyntaxError (Node × Nat) :=
  match fuel with
  | 0 => .error .unexpectedEnd
  | fuel + 1 =>
    match value bs fuel depth i with
    | .error e => .error e
    | .ok (v, j) =>
      let k := skipSpace bs j
      if k ≥ bs.size then .error .unexpectedEnd
      else
        let c := Utf8.byteAt bs k
        if c == 0x2C then elements bs fuel depth start (skipSpace bs (k + 1)) (acc.push v)
        else if c == 0x5D then .ok (.array ⟨start, k + 1⟩ (acc.push v).toList, k + 1)
        else .error (.invalidCharacter (shownAt bs k) .afterElement)

/-- The members of an object opened at `start`, from the name at `i` on. -/
def members (bs : ByteArray) (fuel depth start i : Nat) (acc : Array (String × Node)) :
    Except SyntaxError (Node × Nat) :=
  match fuel with
  | 0 => .error .unexpectedEnd
  | fuel + 1 =>
    if i ≥ bs.size then .error .unexpectedEnd
    else if Utf8.byteAt bs i != 0x22 then .error (.invalidCharacter (shownAt bs i) .nameStart)
    else
      match stringBody bs (i + 1) "" with
      | .error e => .error e
      | .ok (name, j) =>
        let j := skipSpace bs j
        if j ≥ bs.size then .error .unexpectedEnd
        else if Utf8.byteAt bs j != 0x3A then
          .error (.invalidCharacter (shownAt bs j) .afterName)
        else
          match value bs fuel depth (skipSpace bs (j + 1)) with
          | .error e => .error e
          | .ok (v, k) =>
            let k := skipSpace bs k
            if k ≥ bs.size then .error .unexpectedEnd
            else
              let c := Utf8.byteAt bs k
              if c == 0x2C then members bs fuel depth start (skipSpace bs (k + 1)) (acc.push (name, v))
              else if c == 0x7D then .ok (.object ⟨start, k + 1⟩ (acc.push (name, v)).toList, k + 1)
              else .error (.invalidCharacter (shownAt bs k) .afterMember)

end

/-- Reads a whole JSON document: one value, with only whitespace around it. -/
def parse (bs : ByteArray) : Except SyntaxError Node :=
  match value bs (2 * bs.size + 4) 0 (skipSpace bs 0) with
  | .error e => .error e
  | .ok (v, j) =>
    let k := skipSpace bs j
    if k < bs.size then .error (.invalidCharacter (shownAt bs k) .afterDocument) else .ok v

end TurnRelay.Json
