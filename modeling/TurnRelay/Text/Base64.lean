/-!
# Base64

Standard base64 with padding: each group of four characters of the alphabet
`A-Z a-z 0-9 + /` gives three bytes, and the last group may end in `=` or `==` for two or one
bytes. Line breaks (carriage return, line feed) anywhere are passed over. Bits left over in a
padded group are ignored.

## Main definitions

* `Base64.decode?`.
-/

namespace TurnRelay.Base64

/-- The value of a character of the alphabet. -/
def sextet (c : Char) : Option Nat :=
  if 'A' ≤ c && c ≤ 'Z' then some (c.toNat - 'A'.toNat)
  else if 'a' ≤ c && c ≤ 'z' then some (c.toNat - 'a'.toNat + 26)
  else if c.isDigit then some (c.toNat - '0'.toNat + 52)
  else if c == '+' then some 62
  else if c == '/' then some 63
  else none

/-- Decodes groups of four characters into `acc`. -/
def decodeGroups (acc : ByteArray) : List Char → Option ByteArray
  | [] => some acc
  | [a, b, '=', '='] => do
    let n := (← sextet a) * 64 + (← sextet b)
    some (acc.push (n / 16).toUInt8)
  | [a, b, c, '='] => do
    let n := ((← sextet a) * 64 + (← sextet b)) * 64 + (← sextet c)
    some ((acc.push (n / 1024).toUInt8).push (n / 4 % 256).toUInt8)
  | a :: b :: c :: d :: rest => do
    let n := (((← sextet a) * 64 + (← sextet b)) * 64 + (← sextet c)) * 64 + (← sextet d)
    decodeGroups (((acc.push (n / 65536).toUInt8).push (n / 256 % 256).toUInt8).push
      (n % 256).toUInt8) rest
  | _ => none

/-- The bytes a base64 text stands for; none when it is not base64. -/
def decode? (s : String) : Option ByteArray :=
  decodeGroups ByteArray.empty (s.toList.filter fun c => c != '\r' && c != '\n')

end TurnRelay.Base64
