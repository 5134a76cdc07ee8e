/-!
# UTF-8 with replacement

Bytes that arrive from a client or from the assistant's output need not be valid UTF-8. This
module reads such bytes the way a lenient reader does: every well-formed sequence of RFC 3629
gives its character, and every byte that is not part of one gives U+FFFD on its own. A
truncated sequence therefore costs one replacement character per byte, not one per sequence.

## Main definitions

* `Utf8.decodeAt` reads one character at a byte offset and says how many bytes it used.
* `Utf8.decodeLossy` reads a whole byte string into a `String`.
* `Utf8.isValid` holds when no byte needs replacing.
-/

namespace TurnRelay.Utf8

/-- A continuation byte, `10xxxxxx`. -/
@[inline] def isTail (b : UInt8) : Bool := 0x80 ≤ b && b ≤ 0xBF

/-- The byte at `i`, or `0` past the end; callers only read bytes they have bounded. -/
@[inline] def byteAt (bs : ByteArray) (i : Nat) : UInt8 := bs.get! i

/-- The character of code point `n`, which the callers have checked to be a scalar value. -/
@[inline] def charOf (n : Nat) : Char := Char.ofNat n

/--
One character at offset `i`: the character and its width in bytes. A byte that does not start
a well-formed sequence (RFC 3629 §4) reads as U+FFFD of width one.
-/
def decodeAt (bs : ByteArray) (i : Nat) : Char × Nat :=
  let n := bs.size
  let b0 := byteAt bs i
  let tail (k : Nat) : Bool := i + k < n && isTail (byteAt bs (i + k))
  let low (k : Nat) : Nat := (byteAt bs (i + k)).toNat &&& 0x3F
  if b0 < 0x80 then (charOf b0.toNat, 1)
  else if 0xC2 ≤ b0 && b0 ≤ 0xDF then
    if tail 1 then (charOf (((b0.toNat &&& 0x1F) <<< 6) ||| low 1), 2)
    else ('�', 1)
  else if 0xE0 ≤ b0 && b0 ≤ 0xEF then
    let b1 := byteAt bs (i + 1)
    let secondOk :=
      i + 1 < n &&
        (if b0 == 0xE0 then 0xA0 ≤ b1 && b1 ≤ 0xBF
         else if b0 == 0xED then 0x80 ≤ b1 && b1 ≤ 0x9F
         else isTail b1)
    if secondOk && tail 2 then
      (charOf (((b0.toNat &&& 0x0F) <<< 12) ||| (low 1 <<< 6) ||| low 2), 3)
    else ('�', 1)
  else if 0xF0 ≤ b0 && b0 ≤ 0xF4 then
    let b1 := byteAt bs (i + 1)
    let secondOk :=
      i + 1 < n &&
        (if b0 == 0xF0 then 0x90 ≤ b1 && b1 ≤ 0xBF
         else if b0 == 0xF4 then 0x80 ≤ b1 && b1 ≤ 0x8F
         else isTail b1)
    if secondOk && tail 2 && tail 3 then
      (charOf (((b0.toNat &&& 0x07) <<< 18) ||| (low 1 <<< 12) ||| (low 2 <<< 6) ||| low 3), 4)
    else ('�', 1)
  else ('�', 1)

/-- Every width `decodeAt` reports is between one and four. -/
theorem decodeAt_width_pos (bs : ByteArray) (i : Nat) : 0 < (decodeAt bs i).2 := by
  unfold decodeAt
  dsimp only
  repeat' split
  all_goals simp

/-- The characters of `bs[i:stop]`, each bad byte replaced, pushed onto `acc`. -/
def decodeRange (bs : ByteArray) (i stop : Nat) (acc : String) : String :=
  if h : i < stop then
    have : stop - (i + (decodeAt bs i).2) < stop - i := by
      have := decodeAt_width_pos bs i
      omega
    decodeRange bs (i + (decodeAt bs i).2) stop (acc.push (decodeAt bs i).1)
  else acc
termination_by stop - i

/-- The text of a byte string, each byte outside a well-formed sequence read as U+FFFD. -/
def decodeLossy (bs : ByteArray) : String := decodeRange bs 0 bs.size ""

/-- The text of `bs[start:stop]`, read like `decodeLossy`. -/
def decodeSlice (bs : ByteArray) (start stop : Nat) : String := decodeRange bs start stop ""

/-- Whether every byte of `bs[i:]` belongs to a well-formed sequence. -/
def validFrom (bs : ByteArray) (i : Nat) : Bool :=
  if h : i < bs.size then
    have : bs.size - (i + (decodeAt bs i).2) < bs.size - i := by
      have := decodeAt_width_pos bs i
      omega
    if (decodeAt bs i).1 == '�' && (decodeAt bs i).2 == 1 then false
    else validFrom bs (i + (decodeAt bs i).2)
  else true
termination_by bs.size - i

/-- Whether a byte string is valid UTF-8. -/
def isValid (bs : ByteArray) : Bool := validFrom bs 0

end TurnRelay.Utf8
