import TurnRelay.Text.Quote

/-!
# Decimal integers

Signed decimal integers as configuration values and log-level offsets spell them: an optional
`+` or `-`, then one or more ASCII digits, nothing else. A value must fit a signed 64-bit word.

`parseWord` reads such a text; a text outside the grammar is `IntegerError.malformed` and a value
outside the word is `IntegerError.range`, the second winning when digits overflow before a
character outside the grammar. `IntegerError.message` writes the failure the way a
configuration error reports it, naming the operation and quoting the text.
-/

namespace TurnRelay.Decimal

/-- The least signed 64-bit value. -/
def wordMin : Int := -(Nat.pow 2 63 : Nat)

/-- The greatest signed 64-bit value. -/
def wordMax : Int := (Nat.pow 2 63 - 1 : Nat)

/-- Why a text is not a signed 64-bit decimal. -/
inductive IntegerError where
  /-- The text is not a sign followed by digits. -/
  | malformed
  /-- The value does not fit 64 bits. -/
  | range
  deriving DecidableEq, Repr

/-- The value of a list of ASCII digits, most significant first. -/
def digitsValue (ds : List Char) : Nat :=
  ds.foldl (fun acc d => acc * 10 + (d.toNat - 48)) 0

/-- Reads ASCII digits into an unsigned 64-bit value, from `acc` on: a character that is not a
digit is `malformed`, and a value that passes `2⁶⁴ - 1` is `range` at once, whatever follows. -/
def unsignedDigits : List Char → Nat → Except IntegerError Nat
  | [], acc => .ok acc
  | c :: rest, acc =>
    if !c.isDigit then .error .malformed
    else if acc * 10 + (c.toNat - 48) ≥ Nat.pow 2 64 then .error .range
    else unsignedDigits rest (acc * 10 + (c.toNat - 48))

/-- Reads `[+-]?[0-9]+` into a signed 64-bit value. A text of fewer than 19 bytes holds no value
out of range and is only checked for its form; a longer one is read digit by digit, so that a
value that overflows is out of range even when a character that is not a digit follows. -/
def parseWord (s : String) : Except IntegerError Int :=
  let cs := s.toList
  let (neg, body) :=
    match cs with
    | '-' :: rest => (true, rest)
    | '+' :: rest => (false, rest)
    | _ => (false, cs)
  let signed (mag : Nat) : Int := if neg then -(mag : Int) else mag
  if body.isEmpty then .error .malformed
  else if s.utf8ByteSize < 19 then
    if body.all Char.isDigit then .ok (signed (digitsValue body)) else .error .malformed
  else
    match unsignedDigits body 0 with
    | .error e => .error e
    | .ok mag => if signed mag < wordMin || signed mag > wordMax then .error .range else .ok (signed mag)

/-- The message of a failed integer conversion of `s`, as the conversion `op` reports it. -/
def IntegerError.message (op : String) (s : String) : IntegerError → String
  | .malformed => op ++ ": parsing " ++ Text.quote s ++ ": invalid syntax"
  | .range => op ++ ": parsing " ++ Text.quote s ++ ": value out of range"

/-- The operation name integer configuration values report. -/
def atoiName : String := "strconv.Atoi"

/-- Reads a boolean spelled `1`, `t`, `T`, `TRUE`, `true`, `True`, or their `0`/`f` opposites. -/
def parseFlag (s : String) : Option Bool :=
  if ["1", "t", "T", "TRUE", "true", "True"].contains s then some true
  else if ["0", "f", "F", "FALSE", "false", "False"].contains s then some false
  else none

/-- The message of a boolean that does not parse. -/
def flagErrorMessage (s : String) : String :=
  "strconv.ParseBool: parsing " ++ Text.quote s ++ ": invalid syntax"

/-- The decimal text of an integer, with a leading `-` when negative. -/
def intText (n : Int) : String :=
  if n < 0 then "-" ++ toString n.natAbs else toString n.natAbs

/-- The decimal text of an integer with its sign always written. -/
def signedText (n : Int) : String :=
  if n < 0 then "-" ++ toString n.natAbs else "+" ++ toString n.natAbs

/-- Wraps an integer into the signed 64-bit range, as word arithmetic does. -/
def wrapWord (n : Int) : Int :=
  let m := n % (Nat.pow 2 64 : Nat)
  if m ≥ (Nat.pow 2 63 : Nat) then m - (Nat.pow 2 64 : Nat) else m

end TurnRelay.Decimal
