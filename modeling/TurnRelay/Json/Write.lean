import TurnRelay.Json.Syntax
import TurnRelay.Decimal.Shortest

/-!
# Writing JSON

Output JSON is compact and safe to embed in HTML: inside strings `<`, `>` and `&` are written
as `\u003c`, `\u003e`, `\u0026`, and the line and paragraph separators U+2028 and U+2029 as
`\u2028`, `\u2029`. Other characters stay as they are except the quote, the backslash and
the controls below U+0020, which get `\"`, `\\`, `\b`, `\f`, `\n`, `\r`, `\t` or `\u00XX`.
A byte string that is not UTF-8 is written character by character as read by
`Utf8.decodeAt`, each byte outside a well-formed sequence as the escape `\ufffd`.

Raw JSON that is passed through (a request's content, an event's bytes) keeps its own escapes
and bytes; `compact` only drops the whitespace between tokens and applies the HTML-safe escapes.

## Main definitions

* `quote` writes a string literal; `quoteLossy` writes one for bytes that need not be UTF-8.
* `compact` re-emits a raw JSON text.
* `Writer.object` and friends assemble documents.
-/

namespace TurnRelay.Json

/-- The ASCII bytes of a text known to be ASCII (or any text, as UTF-8). -/
@[inline] def ascii (s : String) : ByteArray := s.toUTF8

/-- The escape `\uXXXX` for a code point below U+10000. -/
def unicodeEscape (n : Nat) : ByteArray :=
  ascii ("\\u" ++ Text.hexPadded 4 n)

/-- The escaped form of one character inside a string literal. -/
def escapeChar (c : Char) : ByteArray :=
  match c with
  | '"' => ascii "\\\""
  | '\\' => ascii "\\\\"
  | '\x08' => ascii "\\b"
  | '\x0c' => ascii "\\f"
  | '\n' => ascii "\\n"
  | '\r' => ascii "\\r"
  | '\t' => ascii "\\t"
  | '<' | '>' | '&' => unicodeEscape c.toNat
  | '\u2028' | '\u2029' => unicodeEscape c.toNat
  | _ => if c.toNat < 0x20 then unicodeEscape c.toNat else c.toString.toUTF8

/-- A JSON string literal for `s`. -/
def quote (s : String) : ByteArray :=
  let body := s.toList.foldl (fun acc c => acc ++ escapeChar c) ByteArray.empty
  (ascii "\"" ++ body) ++ ascii "\""

/-- The string literal body for the characters of `bs[i:]`, pushed onto `acc`: each well-formed
character escaped as `escapeChar` does, and each byte outside well-formed UTF-8 written
`\ufffd`. -/
def quoteLossyFrom (bs : ByteArray) (i : Nat) (acc : ByteArray) : ByteArray :=
  if h : i < bs.size then
    have : bs.size - (i + (Utf8.decodeAt bs i).2) < bs.size - i :=
      Nat.sub_lt_sub_left h (Nat.lt_add_of_pos_right (Utf8.decodeAt_width_pos bs i))
    let c := (Utf8.decodeAt bs i).1
    let w := (Utf8.decodeAt bs i).2
    let piece := if c == '�' && w == 1 then unicodeEscape 0xFFFD else escapeChar c
    quoteLossyFrom bs (i + (Utf8.decodeAt bs i).2) (acc ++ piece)
  else acc
termination_by bs.size - i

/-- A JSON string literal for a byte string that need not be UTF-8. -/
def quoteLossy (bs : ByteArray) : ByteArray :=
  quoteLossyFrom bs 0 (ascii "\"") ++ ascii "\""

/-- Re-emits `bs[i:]` without whitespace between tokens, with the HTML-safe escapes applied
inside strings. `inString` and `escaped` say where the previous byte left off. -/
def compactFrom (bs : ByteArray) (i : Nat) (inString escaped : Bool) (acc : ByteArray) :
    ByteArray :=
  if i < bs.size then
    let b := Utf8.byteAt bs i
    if inString then
      if escaped then compactFrom bs (i + 1) true false (acc.push b)
      else if b == 0x5C then compactFrom bs (i + 1) true true (acc.push b)
      else if b == 0x22 then compactFrom bs (i + 1) false false (acc.push b)
      else if b == 0x3C || b == 0x3E || b == 0x26 then
        compactFrom bs (i + 1) true false (acc ++ unicodeEscape b.toNat)
      else if b == 0xE2 && i + 2 < bs.size && Utf8.byteAt bs (i + 1) == 0x80 &&
          (Utf8.byteAt bs (i + 2) == 0xA8 || Utf8.byteAt bs (i + 2) == 0xA9) then
        compactFrom bs (i + 3) true false
          (acc ++ unicodeEscape (0x2000 + (Utf8.byteAt bs (i + 2)).toNat - 0x80))
      else compactFrom bs (i + 1) true false (acc.push b)
    else if isSpace b then compactFrom bs (i + 1) false false acc
    else compactFrom bs (i + 1) (b == 0x22) false (acc.push b)
  else acc
termination_by bs.size - i

/-- A raw JSON text without the whitespace between its tokens, HTML-safe. -/
def compact (bs : ByteArray) : ByteArray := compactFrom bs 0 false false ByteArray.empty

/-- Pieces joined by a separator. -/
def joinBytes (sep : ByteArray) : List ByteArray → ByteArray
  | [] => ByteArray.empty
  | [x] => x
  | x :: rest => (x ++ sep) ++ joinBytes sep rest

namespace Writer

/-- An object from its members, in the given order; each value is already JSON. -/
def object (members : List (String × ByteArray)) : ByteArray :=
  let parts := members.map fun (k, v) => (quote k ++ ascii ":") ++ v
  (ascii "\x7b" ++ joinBytes (ascii ",") parts) ++ ascii "\x7d"

/-- An array of JSON values. -/
def array (items : List ByteArray) : ByteArray :=
  (ascii "[" ++ joinBytes (ascii ",") items) ++ ascii "]"

/-- A string value. -/
def str (s : String) : ByteArray := quote s

/-- A string value, or `null`. -/
def optStr : Option String → ByteArray
  | some s => quote s
  | none => ascii "null"

/-- An integer value. -/
def int (n : Int) : ByteArray := ascii (Decimal.intText n)

/-- A boolean value. -/
def bool (b : Bool) : ByteArray := ascii (if b then "true" else "false")

/-- The literal `null`. -/
def null : ByteArray := ascii "null"

/-- An array of strings, or `null` for an absent list. -/
def strList : Option (List String) → ByteArray
  | some xs => array (xs.map quote)
  | none => null

end Writer

end TurnRelay.Json
