import TurnRelay.Text.Utf8

/-!
# White space at the ends of a byte string

Requests and output lines are trimmed of white space at both ends before they are looked at.
White space is Unicode's: the ASCII tab, line feed, vertical tab, form feed, carriage return and
space, and the next-line, no-break and other space separators above U+0080. The bytes are read
as UTF-8; a byte that is not part of a well-formed sequence is never white space.
-/

namespace TurnRelay.Utf8

/-- The white-space characters. -/
def spaceChars : List Char :=
  ['\t', '\n', '\x0b', '\x0c', '\r', ' ', '\x85', '\xa0', '\u1680',
    '\u2000', '\u2001', '\u2002', '\u2003', '\u2004', '\u2005', '\u2006', '\u2007', '\u2008',
    '\u2009', '\u200a', '\u2028', '\u2029', '\u202f', '\u205f', '\u3000']

/-- Whether a character is white space. -/
def isSpaceChar (c : Char) : Bool := spaceChars.contains c

/-- The offset of the first byte from `i` on that does not start a white-space character. -/
def skipLeading (bs : ByteArray) (i : Nat) : Nat :=
  if i < bs.size then
    if isSpaceChar (decodeAt bs i).1 then
      have := decodeAt_width_pos bs i
      skipLeading bs (i + (decodeAt bs i).2)
    else i
  else i
termination_by bs.size - i

/-- Whether `bs[start:stop]` ends with the encoding of `c`. -/
def endsWithChar (bs : ByteArray) (start stop : Nat) (c : Char) : Bool :=
  let enc := c.toString.toUTF8
  enc.size ≤ stop - start && bs.extract (stop - enc.size) stop == enc

/-- The end of `bs[start:stop]` once the white-space characters at its end are dropped. -/
def dropTrailing (bs : ByteArray) (start stop : Nat) : Nat :=
  match spaceChars.find? (endsWithChar bs start stop) with
  | some c =>
    if h : 0 < c.toString.toUTF8.size ∧ c.toString.toUTF8.size ≤ stop then
      have : stop - c.toString.toUTF8.size < stop := Nat.sub_lt_self h.1 h.2
      dropTrailing bs start (stop - c.toString.toUTF8.size)
    else stop
  | none => stop
termination_by stop
decreasing_by omega

/-- The byte string without white space at either end. -/
def trimSpace (bs : ByteArray) : ByteArray :=
  let start := skipLeading bs 0
  bs.extract start (dropTrailing bs start bs.size)

end TurnRelay.Utf8
