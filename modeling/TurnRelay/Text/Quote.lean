import TurnRelay.Text.Utf8
import TurnRelay.Text.Printable

/-!
# Quoted text in messages

Error messages show the text they complain about between double quotes, with every character
that would not print as itself written as an escape. Two spellings are in use:

* `quoteBytes` keeps every printable character and writes the rest as `\n`-style escapes,
  `\xNN` for a byte outside UTF-8, `\uNNNN` or `\UNNNNNNNN` for a character that does not print;
* `quoteAsciiBytes` keeps printable ASCII only and writes every other byte as `\xNN`, the
  spelling used for durations.

`quoteRune` writes one character between single quotes under the first rule.

Which characters print is `isPrintable`'s decision, by Unicode's general categories.
-/

namespace TurnRelay.Text

/-- The lowercase hexadecimal digit of `n < 16`. -/
def hexDigit (n : Nat) : Char :=
  if n < 10 then Char.ofNat (48 + n) else Char.ofNat (87 + n)

/-- `n` in lowercase hexadecimal with at least `width` digits. -/
def hexPadded (width n : Nat) : String :=
  let digits := (Nat.toDigits 16 n)
  String.ofList (List.replicate (width - digits.length) '0' ++ digits)

/-- The escape of a character that does not print: a named escape, `\xNN`, `\uNNNN` or
`\UNNNNNNNN`. -/
def escapeUnprintable (c : Char) : String :=
  match c with
  | '\x07' => "\\a"
  | '\x08' => "\\b"
  | '\x0c' => "\\f"
  | '\n' => "\\n"
  | '\r' => "\\r"
  | '\t' => "\\t"
  | '\x0b' => "\\v"
  | _ =>
    let n := c.toNat
    if n < 0x20 || n == 0x7F then "\\x" ++ hexPadded 2 n
    else if n < 0x10000 then "\\u" ++ hexPadded 4 n
    else "\\U" ++ hexPadded 8 n

/-- One character inside quotes `q`: the quote and the backslash get a backslash, printable
characters stay, the rest are escaped. -/
def escapeIn (q : Char) (c : Char) : String :=
  if c == q || c == '\\' then "\\" ++ c.toString
  else if isPrintable c then c.toString
  else escapeUnprintable c

/-- The quoted form of `bs[i:]`, pushed onto `acc`. -/
def quoteFrom (bs : ByteArray) (i : Nat) (acc : String) : String :=
  if h : i < bs.size then
    have : bs.size - (i + (Utf8.decodeAt bs i).2) < bs.size - i :=
      Nat.sub_lt_sub_left h (Nat.lt_add_of_pos_right (Utf8.decodeAt_width_pos bs i))
    let c := (Utf8.decodeAt bs i).1
    let w := (Utf8.decodeAt bs i).2
    let piece :=
      if c == '�' && w == 1 then "\\x" ++ hexPadded 2 (Utf8.byteAt bs i).toNat
      else escapeIn '"' c
    quoteFrom bs (i + (Utf8.decodeAt bs i).2) (acc ++ piece)
  else acc
termination_by bs.size - i

/-- Bytes between double quotes, escaped so that the result is printable text. -/
def quoteBytes (bs : ByteArray) : String := quoteFrom bs 0 "\"" ++ "\""

/-- Text between double quotes, escaped so that the result is printable text. -/
def quote (s : String) : String := quoteBytes s.toUTF8

/-- One character between single quotes. -/
def quoteRune (c : Char) : String := "'" ++ escapeIn '\'' c ++ "'"

/-- Bytes between double quotes, with every byte outside printable ASCII written `\xNN` and the
quote and backslash escaped. -/
def quoteAsciiBytes (bs : ByteArray) : String :=
  let body := bs.toList.foldl (fun acc b =>
    let n := b.toNat
    if n < 0x20 || n ≥ 0x80 then acc ++ "\\x" ++ hexPadded 2 n
    else if n == 0x22 || n == 0x5C then acc ++ "\\" ++ (Char.ofNat n).toString
    else acc.push (Char.ofNat n)) ""
  "\"" ++ body ++ "\""

end TurnRelay.Text
