import TurnRelay.Text.Utf8

/-!
# The characters of a stream

A YAML stream arrives as bytes, in UTF-8 or, after a byte-order mark, in UTF-16 of either byte
order; a UTF-8 byte-order mark is dropped too. The bytes are read in fills of at most 512: each
fill reads as many bytes as fit beside the bytes left over from the one before (the start of a
character cut off at the end), and decodes every whole character it holds. The end of the bytes
is only noticed by a fill that finds nothing more to read.

Decoding checks each character: a malformed sequence, a surrogate or a code point beyond
U+10FFFF, and a character outside YAML's printable set (tab, line feed, carriage return,
printable ASCII, next line, and the printable ranges beyond) stop the reading. A fill that finds
such a character adds none of its characters, and the problem only surfaces when the scanner
asks for characters past the fills before it: a problem in a later part of a long stream is not
seen while the document before it is read.

## Main definitions

* `Input`: the characters decoded, the fills that delivered them, and the problem at the fill
  after them, if any.
* `Input.ofBytes`.
-/

namespace TurnRelay.Yaml

/-- The bytes a fill reads at most. -/
def fillSize : Nat := 512

/-- The encodings a stream may be in. -/
inductive Encoding where
  | utf8
  | utf16le
  | utf16be
  deriving DecidableEq, Repr

/-- The characters a YAML text may hold: tab, line feed, carriage return, printable ASCII,
next line, and the printable ranges beyond. -/
def isAllowedCode (n : Nat) : Bool :=
  n == 0x09 || n == 0x0A || n == 0x0D || (0x20 ≤ n && n ≤ 0x7E) || n == 0x85 ||
    (0xA0 ≤ n && n ≤ 0xD7FF) || (0xE000 ≤ n && n ≤ 0xFFFD) || (0x10000 ≤ n && n ≤ 0x10FFFF)

/-- What decoding finds at a byte offset. -/
inductive Decoded where
  /-- A character and the bytes it takes. -/
  | char (c : Char) (width : Nat)
  /-- The character goes on past the bytes read so far. -/
  | short
  /-- The bytes are not a character YAML accepts. -/
  | bad (problem : String)
  deriving Repr

/-- The byte at `i`. -/
@[inline] def byte (bs : ByteArray) (i : Nat) : Nat := (Utf8.byteAt bs i).toNat

/-- A decoded code point, checked against YAML's character set. -/
def acceptCode (n width : Nat) : Decoded :=
  if isAllowedCode n then .char (Char.ofNat n) width else .bad "control characters are not allowed"

/-- One UTF-8 character at `i`, with the bytes read so far ending at `stop`; `final` when no
more bytes will come. -/
def utf8At (bs : ByteArray) (i stop : Nat) (final : Bool) : Decoded :=
  let b0 := byte bs i
  let width :=
    if b0 &&& 0x80 == 0 then 1
    else if b0 &&& 0xE0 == 0xC0 then 2
    else if b0 &&& 0xF0 == 0xE0 then 3
    else if b0 &&& 0xF8 == 0xF0 then 4
    else 0
  if width == 0 then .bad "invalid leading UTF-8 octet"
  else if i + width > stop then
    if final then .bad "incomplete UTF-8 octet sequence" else .short
  else
    let lead :=
      if width == 1 then b0 &&& 0x7F
      else if width == 2 then b0 &&& 0x1F
      else if width == 3 then b0 &&& 0x0F
      else b0 &&& 0x07
    let tails := (List.range (width - 1)).map fun k => byte bs (i + 1 + k)
    if tails.any (fun t => t &&& 0xC0 != 0x80) then .bad "invalid trailing UTF-8 octet"
    else
      let value := tails.foldl (fun v t => (v <<< 6) + (t &&& 0x3F)) lead
      if (width == 2 && value < 0x80) || (width == 3 && value < 0x800) ||
          (width == 4 && value < 0x10000) then .bad "invalid length of a UTF-8 sequence"
      else if (0xD800 ≤ value && value ≤ 0xDFFF) || value > 0x10FFFF then
        .bad "invalid Unicode character"
      else acceptCode value width

/-- One UTF-16 character at `i`, low byte first when `little`, with the bytes read so far
ending at `stop`; `final` when no more bytes will come. -/
def utf16At (little : Bool) (bs : ByteArray) (i stop : Nat) (final : Bool) : Decoded :=
  let unit (j : Nat) : Nat :=
    if little then byte bs j + (byte bs (j + 1) <<< 8) else (byte bs j <<< 8) + byte bs (j + 1)
  if i + 2 > stop then
    if final then .bad "incomplete UTF-16 character" else .short
  else
    let value := unit i
    if value &&& 0xFC00 == 0xDC00 then .bad "unexpected low surrogate area"
    else if value &&& 0xFC00 == 0xD800 then
      if i + 4 > stop then
        if final then .bad "incomplete UTF-16 surrogate pair" else .short
      else
        let low := unit (i + 2)
        if low &&& 0xFC00 != 0xDC00 then .bad "expected low surrogate area"
        else acceptCode (0x10000 + ((value &&& 0x3FF) <<< 10) + (low &&& 0x3FF)) 4
    else acceptCode value 2

/-- One character at `i` in an encoding. -/
def decodedAt (enc : Encoding) (bs : ByteArray) (i stop : Nat) (final : Bool) : Decoded :=
  match enc with
  | .utf8 => utf8At bs i stop final
  | .utf16le => utf16At true bs i stop final
  | .utf16be => utf16At false bs i stop final

/-- Decodes the whole characters of `bs[i:stop]` onto `acc`: the characters and the offset of
the first byte left over, or the problem found. -/
def decodeRun (enc : Encoding) (bs : ByteArray) (stop : Nat) (final : Bool) :
    Nat → Nat → Array Char → Except String (Array Char × Nat)
  | 0, i, acc => .ok (acc, i)
  | fuel + 1, i, acc =>
    if i < stop then
      match decodedAt enc bs i stop final with
      | .char c w => decodeRun enc bs stop final fuel (i + w) (acc.push c)
      | .short => .ok (acc, i)
      | .bad p => .error p
    else .ok (acc, i)

/-- The encoding of a stream and the length of its byte-order mark. -/
def detectEncoding (bs : ByteArray) : Encoding × Nat :=
  if bs.size ≥ 2 && byte bs 0 == 0xFF && byte bs 1 == 0xFE then (.utf16le, 2)
  else if bs.size ≥ 2 && byte bs 0 == 0xFE && byte bs 1 == 0xFF then (.utf16be, 2)
  else if bs.size ≥ 3 && byte bs 0 == 0xEF && byte bs 1 == 0xBB && byte bs 2 == 0xBF then
    (.utf8, 3)
  else (.utf8, 0)

/-- The characters of a stream as the fills deliver them. -/
structure Input where
  /-- The characters of the fills that succeeded. -/
  chars : Array Char
  /-- How many characters there are after each fill, first fill first. -/
  fills : List Nat
  /-- Whether the first fill already met the end of the bytes. -/
  endedEarly : Bool
  /-- The problem of the fill after the last one, if it found one. -/
  failure : Option String
  deriving Repr

/-- The fills after the first: `pos` is the first byte not decoded, `readTo` the first byte
not read. -/
def fillsFrom (enc : Encoding) (bs : ByteArray) :
    Nat → Nat → Nat → Array Char → List Nat → Array Char × List Nat × Option String
  | 0, _, _, acc, fills => (acc, fills.reverse, none)
  | fuel + 1, pos, readTo, acc, fills =>
    let count := min (fillSize - (readTo - pos)) (bs.size - readTo)
    if count == 0 then
      if pos < readTo then
        match decodeRun enc bs readTo true (readTo - pos) pos acc with
        | .error p => (acc, fills.reverse, some p)
        | .ok _ => (acc, fills.reverse, none)
      else (acc, fills.reverse, none)
    else
      match decodeRun enc bs (readTo + count) false (readTo + count - pos) pos acc with
      | .error p => (acc, fills.reverse, some p)
      | .ok (acc', pos') => fillsFrom enc bs fuel pos' (readTo + count) acc' (acc'.size :: fills)

/-- The characters of a stream's bytes. -/
def Input.ofBytes (bs : ByteArray) : Input :=
  let (enc, mark) := detectEncoding bs
  let first := min fillSize bs.size
  let ended := bs.size < 3
  match decodeRun enc bs first ended first mark #[] with
  | .error p => ⟨#[], [], ended, some p⟩
  | .ok (cs, pos) =>
    if ended then ⟨cs, [cs.size], true, none⟩
    else
      let (all, later, failure) := fillsFrom enc bs (bs.size + 1) pos first cs []
      ⟨all, cs.size :: later, false, failure⟩

end TurnRelay.Yaml
