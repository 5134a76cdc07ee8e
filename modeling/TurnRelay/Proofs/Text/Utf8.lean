import Mathlib
import TurnRelay.Text.Utf8

/-!
# Encoded characters decode back

A character's UTF-8 bytes (`String.utf8EncodeChar`) are one to four bytes: the lead byte carries
the top bits of the code point and each continuation byte the next six. `decodeAt` reads them
back wherever they stand in a byte string (`decodeAt_encode`), checking the ranges RFC 3629
gives to the second byte of three- and four-byte sequences; a scalar value always meets them,
since it is no surrogate and stays below `0x110000`. `decodeRange_encode` then reads a whole
encoded string back, and `decodeSlice_encode` a string's bytes inside a larger text.

Bytes are read through the byte list (`byteAt_of_eq`), with the text split as what comes before,
the region read and what follows.
-/

namespace TurnRelay.Utf8

/-- The byte at an offset, read off the byte list. -/
theorem byteAt_eq (bs : ByteArray) (i : ℕ) : byteAt bs i = bs.data.toList.getD i 0 := by
  rcases bs with ⟨a⟩
  show a[i]! = a.toList.getD i 0
  rw [List.getD_eq_getElem?_getD, Array.getElem?_toList]
  by_cases h : i < a.size
  · rw [getElem!_pos a i h, getElem?_pos a i h]
    rfl
  · rw [getElem!_neg a i h, getElem?_neg a i h]
    rfl

/-- Inside a region of the byte list, `byteAt` reads the region. -/
theorem byteAt_of_eq {bs : ByteArray} {pre mid post : List UInt8}
    (h : bs.data.toList = pre ++ mid ++ post) {j : ℕ} (hj : j < mid.length) :
    byteAt bs (pre.length + j) = mid[j] := by
  rw [byteAt_eq, h, List.append_assoc, List.getD_eq_getElem?_getD, List.getElem?_append_right (by omega),
    Nat.add_sub_cancel_left, List.getElem?_append_left hj, List.getElem?_eq_getElem hj]
  rfl

theorem size_of_eq {bs : ByteArray} {pre mid post : List UInt8}
    (h : bs.data.toList = pre ++ mid ++ post) : bs.size = pre.length + mid.length + post.length := by
  rw [ByteArray.size, ← Array.length_toList, h]
  simp only [List.length_append]

/-- Bits of disjoint ranges combine by addition. -/
theorem or_eq_add {a b k : ℕ} (ha : 2 ^ k ∣ a) (hb : b < 2 ^ k) : a ||| b = a + b := by
  obtain ⟨q, rfl⟩ := ha
  rw [← Nat.two_pow_add_eq_or_of_lt hb]

theorem and_low (x k : ℕ) : x &&& (2 ^ k - 1) = x % 2 ^ k := Nat.and_two_pow_sub_one_eq_mod x k

/-! The payload of a sequence: the low bits of the lead byte, then six from each continuation,
side by side. The decoder assembles it with masks, shifts and `|||`; as the bit ranges are
disjoint, it is a sum. -/

theorem payload_two (b0 b1 : ℕ) : (b0 &&& 31) <<< 6 ||| b1 &&& 63 = b0 % 32 * 64 + b1 % 64 := by
  rw [show (31 : ℕ) = 2 ^ 5 - 1 from rfl, show (63 : ℕ) = 2 ^ 6 - 1 from rfl, and_low, and_low,
    Nat.shiftLeft_eq, or_eq_add (k := 6) (Dvd.intro_left _ rfl) (Nat.mod_lt _ (by norm_num))]
  norm_num

theorem payload_three (b0 b1 b2 : ℕ) :
    (b0 &&& 15) <<< 12 ||| (b1 &&& 63) <<< 6 ||| b2 &&& 63 = b0 % 16 * 4096 + b1 % 64 * 64 + b2 % 64 := by
  rw [show (15 : ℕ) = 2 ^ 4 - 1 from rfl, show (63 : ℕ) = 2 ^ 6 - 1 from rfl, and_low, and_low,
    and_low, Nat.shiftLeft_eq, Nat.shiftLeft_eq,
    or_eq_add (k := 12) (Dvd.intro_left _ rfl) (by omega),
    or_eq_add (k := 6) (by omega) (Nat.mod_lt _ (by norm_num))]
  norm_num

theorem payload_four (b0 b1 b2 b3 : ℕ) :
    (b0 &&& 7) <<< 18 ||| (b1 &&& 63) <<< 12 ||| (b2 &&& 63) <<< 6 ||| b3 &&& 63 =
      b0 % 8 * 262144 + b1 % 64 * 4096 + b2 % 64 * 64 + b3 % 64 := by
  rw [show (7 : ℕ) = 2 ^ 3 - 1 from rfl, show (63 : ℕ) = 2 ^ 6 - 1 from rfl, and_low, and_low,
    and_low, and_low, Nat.shiftLeft_eq, Nat.shiftLeft_eq, Nat.shiftLeft_eq]
  have h1 : b0 % 2 ^ 3 * 2 ^ 18 ||| b1 % 2 ^ 6 * 2 ^ 12 = b0 % 2 ^ 3 * 2 ^ 18 + b1 % 2 ^ 6 * 2 ^ 12 :=
    or_eq_add (k := 18) (Dvd.intro_left _ rfl) (by omega)
  have h2 : b0 % 2 ^ 3 * 2 ^ 18 + b1 % 2 ^ 6 * 2 ^ 12 ||| b2 % 2 ^ 6 * 2 ^ 6 =
      b0 % 2 ^ 3 * 2 ^ 18 + b1 % 2 ^ 6 * 2 ^ 12 + b2 % 2 ^ 6 * 2 ^ 6 :=
    or_eq_add (k := 12) (by omega) (by omega)
  have h3 : b0 % 2 ^ 3 * 2 ^ 18 + b1 % 2 ^ 6 * 2 ^ 12 + b2 % 2 ^ 6 * 2 ^ 6 ||| b3 % 2 ^ 6 =
      b0 % 2 ^ 3 * 2 ^ 18 + b1 % 2 ^ 6 * 2 ^ 12 + b2 % 2 ^ 6 * 2 ^ 6 + b3 % 2 ^ 6 :=
    or_eq_add (k := 6) (by omega) (by omega)
  rw [h1, h2, h3]
  norm_num

/-- A character is a scalar value: below the surrogates, or above them and below `0x110000`. -/
theorem toNat_valid (c : Char) : c.toNat < 0xD800 ∨ (0xDFFF < c.toNat ∧ c.toNat < 0x110000) := by
  have := c.valid
  simp only [UInt32.isValidChar, Nat.isValidChar] at this
  exact this

theorem toNat_lt (c : Char) : c.toNat < 0x110000 := by
  rcases toNat_valid c with h | h <;> omega

/-- The byte at an offset inside a region whose bytes, as numbers, are `vs`. -/
theorem byteAt_toNat {bs : ByteArray} {pre mid post : List UInt8} {vs : List ℕ}
    (h : bs.data.toList = pre ++ mid ++ post) (hvs : mid.map UInt8.toNat = vs) {j : ℕ}
    (hj : j < mid.length) : (byteAt bs (pre.length + j)).toNat = getElem vs j (by simp [← hvs, hj]) := by
  rw [byteAt_of_eq h hj]
  simp [← hvs]

/-! ## The bytes of a character, as numbers -/

section Encode

variable {c : Char}

theorem val_toNat (c : Char) : c.val.toNat = c.toNat := rfl

/-- A one-byte character is its own byte. -/
theorem encode_one (hc : c.utf8Size = 1) : (String.utf8EncodeChar c).map UInt8.toNat = [c.toNat] := by
  have hn : c.toNat < 128 := by
    have := Char.utf8Size_eq_one_iff.mp hc
    simp only [UInt32.le_iff_toNat_le, UInt32.reduceToNat, val_toNat] at this
    omega
  rw [String.utf8EncodeChar_eq_singleton hc]
  simp only [List.map_cons, List.map_nil, List.cons.injEq, and_true]
  rw [UInt32.toNat_toUInt8, val_toNat]
  omega

/-- A two-byte character: five bits after `110`, then six after `10`. -/
theorem encode_two (hc : c.utf8Size = 2) :
    (String.utf8EncodeChar c).map UInt8.toNat = [c.toNat / 64 + 192, c.toNat % 64 + 128] := by
  have hn : c.toNat < 2048 := by
    have := Char.utf8Size_eq_two_iff.mp hc
    simp only [UInt32.lt_iff_toNat_lt, UInt32.le_iff_toNat_le, UInt32.reduceToNat, val_toNat] at this
    omega
  rw [String.utf8EncodeChar_eq_cons_cons hc]
  simp only [List.map_cons, List.map_nil, List.cons.injEq, and_true, UInt8.toNat_or,
    UInt8.toNat_and, UInt32.toNat_toUInt8, UInt32.toNat_shiftRight, UInt8.reduceToNat,
    UInt32.reduceToNat, Nat.reduceMod, Nat.shiftRight_eq_div_pow, val_toNat]
  rw [show (31 : ℕ) = 2 ^ 5 - 1 from rfl, show (63 : ℕ) = 2 ^ 6 - 1 from rfl, and_low, and_low,
    Nat.or_comm, or_eq_add (k := 5) (by norm_num) (Nat.mod_lt _ (by norm_num)), Nat.or_comm,
    or_eq_add (k := 6) (by norm_num) (Nat.mod_lt _ (by norm_num))]
  omega

/-- A three-byte character: four bits after `1110`, then twice six after `10`. -/
theorem encode_three (hc : c.utf8Size = 3) :
    (String.utf8EncodeChar c).map UInt8.toNat =
      [c.toNat / 4096 + 224, c.toNat / 64 % 64 + 128, c.toNat % 64 + 128] := by
  have hn : c.toNat < 65536 := by
    have := Char.utf8Size_eq_three_iff.mp hc
    simp only [UInt32.lt_iff_toNat_lt, UInt32.le_iff_toNat_le, UInt32.reduceToNat, val_toNat] at this
    omega
  rw [String.utf8EncodeChar_eq_cons_cons_cons hc]
  simp only [List.map_cons, List.map_nil, List.cons.injEq, and_true, UInt8.toNat_or,
    UInt8.toNat_and, UInt32.toNat_toUInt8, UInt32.toNat_shiftRight, UInt8.reduceToNat,
    UInt32.reduceToNat, Nat.reduceMod, Nat.shiftRight_eq_div_pow, val_toNat]
  rw [show (15 : ℕ) = 2 ^ 4 - 1 from rfl, show (63 : ℕ) = 2 ^ 6 - 1 from rfl, and_low, and_low,
    and_low, Nat.or_comm, or_eq_add (k := 4) (by norm_num) (Nat.mod_lt _ (by norm_num)),
    Nat.or_comm, or_eq_add (k := 6) (by norm_num) (Nat.mod_lt _ (by norm_num)), Nat.or_comm,
    or_eq_add (k := 6) (by norm_num) (Nat.mod_lt _ (by norm_num))]
  omega

/-- A four-byte character: three bits after `11110`, then three times six after `10`. -/
theorem encode_four (hc : c.utf8Size = 4) :
    (String.utf8EncodeChar c).map UInt8.toNat =
      [c.toNat / 262144 + 240, c.toNat / 4096 % 64 + 128, c.toNat / 64 % 64 + 128,
        c.toNat % 64 + 128] := by
  have hn := toNat_lt c
  rw [String.utf8EncodeChar_eq_cons_cons_cons_cons hc]
  simp only [List.map_cons, List.map_nil, List.cons.injEq, and_true, UInt8.toNat_or,
    UInt8.toNat_and, UInt32.toNat_toUInt8, UInt32.toNat_shiftRight, UInt8.reduceToNat,
    UInt32.reduceToNat, Nat.reduceMod, Nat.shiftRight_eq_div_pow, val_toNat]
  rw [show (7 : ℕ) = 2 ^ 3 - 1 from rfl, show (63 : ℕ) = 2 ^ 6 - 1 from rfl, and_low, and_low,
    and_low, and_low, Nat.or_comm, or_eq_add (k := 3) (by norm_num) (Nat.mod_lt _ (by norm_num)),
    Nat.or_comm, or_eq_add (k := 6) (by norm_num) (Nat.mod_lt _ (by norm_num)), Nat.or_comm,
    or_eq_add (k := 6) (by norm_num) (Nat.mod_lt _ (by norm_num)), Nat.or_comm,
    or_eq_add (k := 6) (by norm_num) (Nat.mod_lt _ (by norm_num))]
  omega

/-- The lead byte of a character below `0x80` is the character; that of any other is at least
`0xC2`, so it is neither a quote, a backslash nor a control. -/
theorem lead_byte (c : Char) :
    ∃ b rest, String.utf8EncodeChar c = b :: rest ∧ (b.toNat = c.toNat ∨ 0xC2 ≤ b.toNat) := by
  have hpos := c.utf8Size_pos
  have hle := c.utf8Size_le_four
  obtain ⟨b, rest, hbr⟩ := List.exists_cons_of_ne_nil
    (List.ne_nil_of_length_pos (by simp [hpos] : 0 < (String.utf8EncodeChar c).length))
  refine ⟨b, rest, hbr, ?_⟩
  have hlead : ∀ {vs : List ℕ}, (String.utf8EncodeChar c).map UInt8.toNat = vs → b.toNat = vs.headD 0 := by
    intro vs hvs
    rw [← hvs, hbr]
    rfl
  rcases (by omega : c.utf8Size = 1 ∨ c.utf8Size = 2 ∨ c.utf8Size = 3 ∨ c.utf8Size = 4) with
    hc | hc | hc | hc
  · exact .inl (hlead (encode_one hc))
  · have := Char.utf8Size_eq_two_iff.mp hc
    simp only [UInt32.lt_iff_toNat_lt, UInt32.reduceToNat, val_toNat] at this
    exact .inr (by rw [hlead (encode_two hc)]; simp only [List.headD_cons]; omega)
  · exact .inr (by rw [hlead (encode_three hc)]; simp only [List.headD_cons]; omega)
  · exact .inr (by rw [hlead (encode_four hc)]; simp only [List.headD_cons]; omega)

end Encode

/-- The UTF-8 bytes of a string are those of its characters in turn. -/
theorem toUTF8_data (s : String) : s.toUTF8.data.toList = s.toList.flatMap String.utf8EncodeChar := by
  rw [String.toUTF8, ← String.utf8Encode_toList, List.utf8Encode]
  simp

/-! ## Decoding one character -/

section Decode

variable {bs : ByteArray} {pre post : List UInt8} {c : Char}

theorem decodeAt_one (hc : c.utf8Size = 1)
    (h : bs.data.toList = pre ++ String.utf8EncodeChar c ++ post) :
    decodeAt bs pre.length = (c, 1) := by
  have hv0 := byteAt_toNat h (encode_one hc) (j := 0) (by simp [hc])
  simp only [List.getElem_cons_zero, Nat.add_zero] at hv0
  have hn : c.toNat < 128 := by
    have := Char.utf8Size_eq_one_iff.mp hc
    simp only [UInt32.le_iff_toNat_le, UInt32.reduceToNat, val_toNat] at this
    omega
  unfold decodeAt
  simp only [UInt8.lt_iff_toNat_lt, hv0, UInt8.reduceToNat]
  rw [if_pos hn, charOf, Char.ofNat_toNat]

/-- The decoder's check on the second byte of a three-byte sequence: a continuation byte, from
`A0` after `E0` (no overlong form) and up to `9F` after `ED` (no surrogate). -/
theorem secondOk_three (b0 b1 : UInt8) :
    (if b0 == 0xE0 then 0xA0 ≤ b1 && b1 ≤ 0xBF else if b0 == 0xED then 0x80 ≤ b1 && b1 ≤ 0x9F
      else isTail b1) =
      decide ((128 ≤ b1.toNat ∧ b1.toNat ≤ 191) ∧ (b0.toNat = 224 → 160 ≤ b1.toNat) ∧
        (b0.toNat = 237 → b1.toNat ≤ 159)) := by
  simp only [isTail, beq_iff_eq, ← UInt8.toNat_inj, UInt8.le_iff_toNat_le, UInt8.reduceToNat]
  split_ifs <;> rw [Bool.eq_iff_iff] <;> simp only [Bool.and_eq_true, decide_eq_true_eq] <;> omega

/-- The check on the second byte of a four-byte sequence: from `90` after `F0` (no overlong
form) and up to `8F` after `F4` (nothing past `10FFFF`). -/
theorem secondOk_four (b0 b1 : UInt8) :
    (if b0 == 0xF0 then 0x90 ≤ b1 && b1 ≤ 0xBF else if b0 == 0xF4 then 0x80 ≤ b1 && b1 ≤ 0x8F
      else isTail b1) =
      decide ((128 ≤ b1.toNat ∧ b1.toNat ≤ 191) ∧ (b0.toNat = 240 → 144 ≤ b1.toNat) ∧
        (b0.toNat = 244 → b1.toNat ≤ 143)) := by
  simp only [isTail, beq_iff_eq, ← UInt8.toNat_inj, UInt8.le_iff_toNat_le, UInt8.reduceToNat]
  split_ifs <;> rw [Bool.eq_iff_iff] <;> simp only [Bool.and_eq_true, decide_eq_true_eq] <;> omega

/-! The payload of a character's own bytes (`encode_two` and its siblings) is its code point. -/

theorem payload_encode_two {n : ℕ} (hn : n < 2048) :
    (n / 64 + 192 &&& 31) <<< 6 ||| n % 64 + 128 &&& 63 = n := by
  rw [payload_two]
  omega

theorem payload_encode_three {n : ℕ} (hn : n < 65536) :
    (n / 4096 + 224 &&& 15) <<< 12 ||| (n / 64 % 64 + 128 &&& 63) <<< 6 ||| n % 64 + 128 &&& 63 = n := by
  rw [payload_three]
  omega

theorem payload_encode_four {n : ℕ} (hn : n < 0x110000) :
    (n / 262144 + 240 &&& 7) <<< 18 ||| (n / 4096 % 64 + 128 &&& 63) <<< 12 |||
      (n / 64 % 64 + 128 &&& 63) <<< 6 ||| n % 64 + 128 &&& 63 = n := by
  rw [payload_four]
  omega

theorem decodeAt_two (hc : c.utf8Size = 2)
    (h : bs.data.toList = pre ++ String.utf8EncodeChar c ++ post) :
    decodeAt bs pre.length = (c, 2) := by
  have hlen : (String.utf8EncodeChar c).length = 2 := by simp [hc]
  have hsize := size_of_eq h
  have hv0 := byteAt_toNat h (encode_two hc) (j := 0) (by omega)
  have hv1 := byteAt_toNat h (encode_two hc) (j := 1) (by omega)
  simp only [List.getElem_cons_zero, List.getElem_cons_succ, Nat.add_zero] at hv0 hv1
  have hn : 128 ≤ c.toNat ∧ c.toNat < 2048 := by
    have := Char.utf8Size_eq_two_iff.mp hc
    simp only [UInt32.lt_iff_toNat_lt, UInt32.le_iff_toNat_le, UInt32.reduceToNat, val_toNat] at this
    omega
  unfold decodeAt
  simp only [hsize, hlen, isTail, UInt8.lt_iff_toNat_lt, UInt8.le_iff_toNat_le, hv0, hv1,
    UInt8.reduceToNat]
  rw [if_neg (by omega), if_pos (by simp only [Bool.and_eq_true, decide_eq_true_eq]; omega),
    if_pos (by simp only [Bool.and_eq_true, decide_eq_true_eq]; omega)]
  rw [payload_encode_two hn.2, charOf, Char.ofNat_toNat]

theorem decodeAt_three (hc : c.utf8Size = 3)
    (h : bs.data.toList = pre ++ String.utf8EncodeChar c ++ post) :
    decodeAt bs pre.length = (c, 3) := by
  have hlen : (String.utf8EncodeChar c).length = 3 := by simp [hc]
  have hsize := size_of_eq h
  have hv0 := byteAt_toNat h (encode_three hc) (j := 0) (by omega)
  have hv1 := byteAt_toNat h (encode_three hc) (j := 1) (by omega)
  have hv2 := byteAt_toNat h (encode_three hc) (j := 2) (by omega)
  simp only [List.getElem_cons_zero, List.getElem_cons_succ, Nat.add_zero] at hv0 hv1 hv2
  have hn : 2048 ≤ c.toNat ∧ c.toNat < 65536 := by
    have := Char.utf8Size_eq_three_iff.mp hc
    simp only [UInt32.lt_iff_toNat_lt, UInt32.le_iff_toNat_le, UInt32.reduceToNat, val_toNat] at this
    omega
  -- a scalar value: the lead byte `ED` is followed by at most `9F`
  have hscalar := toNat_valid c
  unfold decodeAt
  dsimp only
  rw [secondOk_three]
  simp only [hsize, hlen, isTail, UInt8.lt_iff_toNat_lt, UInt8.le_iff_toNat_le, hv0, hv1, hv2,
    UInt8.reduceToNat, Bool.and_eq_true, decide_eq_true_eq]
  rw [if_neg (by omega), if_neg (by omega), if_pos (by omega), if_pos (by omega)]
  rw [payload_encode_three hn.2, charOf, Char.ofNat_toNat]

theorem decodeAt_four (hc : c.utf8Size = 4)
    (h : bs.data.toList = pre ++ String.utf8EncodeChar c ++ post) :
    decodeAt bs pre.length = (c, 4) := by
  have hlen : (String.utf8EncodeChar c).length = 4 := by simp [hc]
  have hsize := size_of_eq h
  have hv0 := byteAt_toNat h (encode_four hc) (j := 0) (by omega)
  have hv1 := byteAt_toNat h (encode_four hc) (j := 1) (by omega)
  have hv2 := byteAt_toNat h (encode_four hc) (j := 2) (by omega)
  have hv3 := byteAt_toNat h (encode_four hc) (j := 3) (by omega)
  simp only [List.getElem_cons_zero, List.getElem_cons_succ, Nat.add_zero] at hv0 hv1 hv2 hv3
  have hn : 65536 ≤ c.toNat := by
    have := Char.utf8Size_eq_four_iff.mp hc
    simp only [UInt32.lt_iff_toNat_lt, UInt32.reduceToNat, val_toNat] at this
    omega
  -- a scalar value: the lead byte `F4` is followed by at most `8F`
  have hscalar := toNat_valid c
  unfold decodeAt
  dsimp only
  rw [secondOk_four]
  simp only [hsize, hlen, isTail, UInt8.lt_iff_toNat_lt, UInt8.le_iff_toNat_le, hv0, hv1, hv2, hv3,
    UInt8.reduceToNat, Bool.and_eq_true, decide_eq_true_eq]
  rw [if_neg (by omega), if_neg (by omega), if_neg (by omega), if_pos (by omega), if_pos (by omega)]
  rw [payload_encode_four (toNat_lt c), charOf, Char.ofNat_toNat]

end Decode

/-- A character's UTF-8 bytes decode back to the character, over its whole width. -/
theorem decodeAt_encode {bs : ByteArray} {pre post : List UInt8} {c : Char}
    (h : bs.data.toList = pre ++ String.utf8EncodeChar c ++ post) :
    decodeAt bs pre.length = (c, c.utf8Size) := by
  have hpos := c.utf8Size_pos
  have hle := c.utf8Size_le_four
  rcases (by omega : c.utf8Size = 1 ∨ c.utf8Size = 2 ∨ c.utf8Size = 3 ∨ c.utf8Size = 4) with
    hc | hc | hc | hc
  · rw [decodeAt_one hc h, hc]
  · rw [decodeAt_two hc h, hc]
  · rw [decodeAt_three hc h, hc]
  · rw [decodeAt_four hc h, hc]

/-- The UTF-8 bytes of a string decode back to the string. -/
theorem decodeRange_encode (cs : List Char) {bs : ByteArray} {pre post : List UInt8} (acc : String)
    (h : bs.data.toList = pre ++ cs.flatMap String.utf8EncodeChar ++ post) :
    decodeRange bs pre.length (pre.length + (cs.flatMap String.utf8EncodeChar).length) acc =
      acc ++ String.ofList cs := by
  induction cs generalizing pre acc with
  | nil =>
    rw [decodeRange]
    simp
  | cons c cs ih =>
    have hc : decodeAt bs pre.length = (c, c.utf8Size) :=
      @decodeAt_encode bs pre (cs.flatMap String.utf8EncodeChar ++ post) c (by simp [h])
    have hrest := @ih (pre ++ String.utf8EncodeChar c) (acc.push c) (by simp [h])
    rw [decodeRange, dif_pos (by simp [c.utf8Size_pos])]
    simp only [hc, List.length_append, String.length_utf8EncodeChar, List.flatMap_cons] at hrest ⊢
    rw [← Nat.add_assoc, hrest, ← String.toList_inj]
    simp

/-- The text of a slice holding a string's UTF-8 bytes is that string. -/
theorem decodeSlice_encode {bs : ByteArray} {pre post : List UInt8} (s : String)
    (h : bs.data.toList = pre ++ s.toUTF8.data.toList ++ post) :
    decodeSlice bs pre.length (pre.length + s.toUTF8.data.toList.length) = s := by
  rw [toUTF8_data] at h ⊢
  rw [decodeSlice, decodeRange_encode s.toList "" h]
  simp

/-- Reading a string's own bytes with replacement gives the string back: they hold no byte to
replace. -/
theorem decodeLossy_toUTF8 (s : String) : decodeLossy s.toUTF8 = s := by
  have h : s.toUTF8.data.toList = [] ++ s.toUTF8.data.toList ++ [] := by simp
  have hsize : s.toUTF8.size = ([] : List UInt8).length + s.toUTF8.data.toList.length := by simp
  rw [decodeLossy, hsize]
  exact decodeSlice_encode s h

/-! ## What `decodeAt` reads is an encoding

The converse: a sequence `decodeAt` accepts is the encoding of the character it returns
(`decodeAt_sound`). So what `decodeAt` reads at an offset depends only on which character's
encoding, if any, stands there (`decodeAt_congr`); in particular, bytes after the first one that
is not a continuation byte are never looked at (`decodeAt_append_of_not_tail`), nor are bytes
before the offset (`decodeAt_shift`). -/

/-- Bytes read at `i` whose values are those of a character's encoding are that encoding. -/
theorem drop_eq_encode_of_bytes {bs : ByteArray} {i : ℕ} {c : Char} {vs : List ℕ}
    (henc : (String.utf8EncodeChar c).map UInt8.toNat = vs) (hfit : i + vs.length ≤ bs.size)
    (hbytes : ∀ k (hk : k < vs.length), (byteAt bs (i + k)).toNat = vs[k]) :
    ∃ post, bs.data.toList.drop i = String.utf8EncodeChar c ++ post := by
  refine ⟨bs.data.toList.drop (i + vs.length), ?_⟩
  have hlen : (String.utf8EncodeChar c).length = vs.length := by rw [← henc, List.length_map]
  have htake : (bs.data.toList.drop i).take vs.length = String.utf8EncodeChar c := by
    apply List.map_injective_iff.mpr (fun a b h => UInt8.toNat_inj.mp h)
    apply List.ext_getElem
    · simp only [List.length_map, List.length_take, List.length_drop, Array.length_toList,
        ByteArray.size_data, hlen]
      omega
    · intro k hk1 hk2
      simp only [List.length_map, List.length_take] at hk1
      have hk : k < vs.length := by omega
      have hbyte := hbytes k hk
      rw [byteAt_eq, List.getD_eq_getElem _ _ (by simp; omega)] at hbyte
      simp only [List.getElem_map, List.getElem_take, List.getElem_drop, hbyte]
      simp only [← henc, List.getElem_map]
  rw [← htake, ← List.drop_drop, List.take_append_drop]


/-- A code point that is a scalar value names the character with that code point. -/
theorem toNat_ofNat_of_valid {n : ℕ} (h : n < 0xD800 ∨ (0xDFFF < n ∧ n < 0x110000)) :
    (Char.ofNat n).toNat = n := by
  rw [Char.toNat_ofNat, if_pos h]

section Sound

variable {bs : ByteArray} {i : ℕ}

/-- A byte below `0x80` is the encoding of the character it decodes to. -/
theorem encode_of_one (h0 : (byteAt bs i).toNat < 128) (hi : i < bs.size) :
    (∃ post, bs.data.toList.drop i = String.utf8EncodeChar (Char.ofNat (byteAt bs i).toNat) ++ post) ∧
      1 = (Char.ofNat (byteAt bs i).toNat).utf8Size := by
  have hc : (Char.ofNat (byteAt bs i).toNat).toNat = (byteAt bs i).toNat :=
    toNat_ofNat_of_valid (by omega)
  have hsize : (Char.ofNat (byteAt bs i).toNat).utf8Size = 1 := by
    rw [Char.utf8Size_eq_one_iff]
    simp only [UInt32.le_iff_toNat_le, UInt32.reduceToNat, val_toNat, hc]
    omega
  refine ⟨drop_eq_encode_of_bytes (encode_one hsize) (by simp; omega) ?_, hsize.symm⟩
  intro k hk
  simp only [List.length_cons, List.length_nil] at hk
  interval_cases k
  simp [hc]

/-- A valid two-byte sequence is the encoding of the character it decodes to. -/
theorem encode_of_two (h0 : 194 ≤ (byteAt bs i).toNat ∧ (byteAt bs i).toNat ≤ 223)
    (h1 : i + 1 < bs.size ∧ 128 ≤ (byteAt bs (i + 1)).toNat ∧ (byteAt bs (i + 1)).toNat ≤ 191) :
    (∃ post, bs.data.toList.drop i = String.utf8EncodeChar
        (Char.ofNat (((byteAt bs i).toNat &&& 31) <<< 6 ||| (byteAt bs (i + 1)).toNat &&& 63)) ++ post) ∧
      2 = (Char.ofNat (((byteAt bs i).toNat &&& 31) <<< 6 ||| (byteAt bs (i + 1)).toNat &&& 63)).utf8Size := by
  set b0 := (byteAt bs i).toNat
  set b1 := (byteAt bs (i + 1)).toNat
  have hc : (Char.ofNat ((b0 &&& 31) <<< 6 ||| b1 &&& 63)).toNat = b0 % 32 * 64 + b1 % 64 := by
    rw [payload_two, toNat_ofNat_of_valid (by omega)]
  have hsize : (Char.ofNat ((b0 &&& 31) <<< 6 ||| b1 &&& 63)).utf8Size = 2 := by
    rw [Char.utf8Size_eq_two_iff]
    simp only [UInt32.lt_iff_toNat_lt, UInt32.le_iff_toNat_le, UInt32.reduceToNat, val_toNat, hc]
    omega
  -- the code point is rewritten in the encoding, not under the byte-by-byte `getElem`, where
  -- the kernel would compare the two lists' bound proofs by unfolding `Char.ofNat`
  have henc : (String.utf8EncodeChar (Char.ofNat ((b0 &&& 31) <<< 6 ||| b1 &&& 63))).map
      UInt8.toNat = [b0, b1] := by
    rw [encode_two hsize, hc]
    simp only [List.cons.injEq, and_true]
    omega
  refine ⟨drop_eq_encode_of_bytes henc (by simp; omega) ?_, hsize.symm⟩
  intro k hk
  simp only [List.length_cons, List.length_nil] at hk
  interval_cases k <;> rfl

/-- A valid three-byte sequence is the encoding of the character it decodes to. -/
theorem encode_of_three (h0 : 224 ≤ (byteAt bs i).toNat ∧ (byteAt bs i).toNat ≤ 239)
    (h1 : i + 1 < bs.size ∧ 128 ≤ (byteAt bs (i + 1)).toNat ∧ (byteAt bs (i + 1)).toNat ≤ 191)
    (hlow : (byteAt bs i).toNat = 224 → 160 ≤ (byteAt bs (i + 1)).toNat)
    (hhigh : (byteAt bs i).toNat = 237 → (byteAt bs (i + 1)).toNat ≤ 159)
    (h2 : i + 2 < bs.size ∧ 128 ≤ (byteAt bs (i + 2)).toNat ∧ (byteAt bs (i + 2)).toNat ≤ 191) :
    (∃ post, bs.data.toList.drop i = String.utf8EncodeChar
        (Char.ofNat (((byteAt bs i).toNat &&& 15) <<< 12 ||| ((byteAt bs (i + 1)).toNat &&& 63) <<< 6 |||
          (byteAt bs (i + 2)).toNat &&& 63)) ++ post) ∧
      3 = (Char.ofNat (((byteAt bs i).toNat &&& 15) <<< 12 ||| ((byteAt bs (i + 1)).toNat &&& 63) <<< 6 |||
          (byteAt bs (i + 2)).toNat &&& 63)).utf8Size := by
  set b0 := (byteAt bs i).toNat
  set b1 := (byteAt bs (i + 1)).toNat
  set b2 := (byteAt bs (i + 2)).toNat
  have hc : (Char.ofNat ((b0 &&& 15) <<< 12 ||| (b1 &&& 63) <<< 6 ||| b2 &&& 63)).toNat =
      b0 % 16 * 4096 + b1 % 64 * 64 + b2 % 64 := by
    rw [payload_three, toNat_ofNat_of_valid (by omega)]
  have hsize : (Char.ofNat ((b0 &&& 15) <<< 12 ||| (b1 &&& 63) <<< 6 ||| b2 &&& 63)).utf8Size = 3 := by
    rw [Char.utf8Size_eq_three_iff]
    simp only [UInt32.lt_iff_toNat_lt, UInt32.le_iff_toNat_le, UInt32.reduceToNat, val_toNat, hc]
    omega
  have henc : (String.utf8EncodeChar (Char.ofNat ((b0 &&& 15) <<< 12 ||| (b1 &&& 63) <<< 6 |||
      b2 &&& 63))).map UInt8.toNat = [b0, b1, b2] := by
    rw [encode_three hsize, hc]
    simp only [List.cons.injEq, and_true]
    omega
  refine ⟨drop_eq_encode_of_bytes henc (by simp; omega) ?_, hsize.symm⟩
  intro k hk
  simp only [List.length_cons, List.length_nil] at hk
  interval_cases k <;> rfl


/-- A valid four-byte sequence is the encoding of the character it decodes to. -/
theorem encode_of_four (h0 : 240 ≤ (byteAt bs i).toNat ∧ (byteAt bs i).toNat ≤ 244)
    (h1 : i + 1 < bs.size ∧ 128 ≤ (byteAt bs (i + 1)).toNat ∧ (byteAt bs (i + 1)).toNat ≤ 191)
    (hlow : (byteAt bs i).toNat = 240 → 144 ≤ (byteAt bs (i + 1)).toNat)
    (hhigh : (byteAt bs i).toNat = 244 → (byteAt bs (i + 1)).toNat ≤ 143)
    (h2 : i + 2 < bs.size ∧ 128 ≤ (byteAt bs (i + 2)).toNat ∧ (byteAt bs (i + 2)).toNat ≤ 191)
    (h3 : i + 3 < bs.size ∧ 128 ≤ (byteAt bs (i + 3)).toNat ∧ (byteAt bs (i + 3)).toNat ≤ 191) :
    (∃ post, bs.data.toList.drop i = String.utf8EncodeChar
        (Char.ofNat (((byteAt bs i).toNat &&& 7) <<< 18 ||| ((byteAt bs (i + 1)).toNat &&& 63) <<< 12 |||
          ((byteAt bs (i + 2)).toNat &&& 63) <<< 6 ||| (byteAt bs (i + 3)).toNat &&& 63)) ++ post) ∧
      4 = (Char.ofNat (((byteAt bs i).toNat &&& 7) <<< 18 ||| ((byteAt bs (i + 1)).toNat &&& 63) <<< 12 |||
          ((byteAt bs (i + 2)).toNat &&& 63) <<< 6 ||| (byteAt bs (i + 3)).toNat &&& 63)).utf8Size := by
  set b0 := (byteAt bs i).toNat
  set b1 := (byteAt bs (i + 1)).toNat
  set b2 := (byteAt bs (i + 2)).toNat
  set b3 := (byteAt bs (i + 3)).toNat
  have hc : (Char.ofNat ((b0 &&& 7) <<< 18 ||| (b1 &&& 63) <<< 12 ||| (b2 &&& 63) <<< 6 |||
      b3 &&& 63)).toNat = b0 % 8 * 262144 + b1 % 64 * 4096 + b2 % 64 * 64 + b3 % 64 := by
    rw [payload_four, toNat_ofNat_of_valid (by omega)]
  have hsize : (Char.ofNat ((b0 &&& 7) <<< 18 ||| (b1 &&& 63) <<< 12 ||| (b2 &&& 63) <<< 6 |||
      b3 &&& 63)).utf8Size = 4 := by
    rw [Char.utf8Size_eq_four_iff]
    simp only [UInt32.lt_iff_toNat_lt, UInt32.reduceToNat, val_toNat, hc]
    omega
  have henc : (String.utf8EncodeChar (Char.ofNat ((b0 &&& 7) <<< 18 ||| (b1 &&& 63) <<< 12 |||
      (b2 &&& 63) <<< 6 ||| b3 &&& 63))).map UInt8.toNat = [b0, b1, b2, b3] := by
    rw [encode_four hsize, hc]
    simp only [List.cons.injEq, and_true]
    omega
  refine ⟨drop_eq_encode_of_bytes henc (by simp; omega) ?_, hsize.symm⟩
  intro k hk
  simp only [List.length_cons, List.length_nil] at hk
  interval_cases k <;> rfl

/-- What `decodeAt` reads inside the text is either a byte it replaces, or a character whose
encoding stands there, over the width it reports. -/
theorem decodeAt_sound (hi : i < bs.size) :
    decodeAt bs i = ('�', 1) ∨
      (∃ post, bs.data.toList.drop i = String.utf8EncodeChar (decodeAt bs i).1 ++ post) ∧
        (decodeAt bs i).2 = (decodeAt bs i).1.utf8Size := by
  -- the decoder's answer is named once, so its branches are split in one copy of its body
  obtain ⟨r, hr⟩ : ∃ r, decodeAt bs i = r := ⟨_, rfl⟩
  rw [hr]
  unfold decodeAt at hr
  dsimp only at hr
  rw [secondOk_three, secondOk_four] at hr
  simp only [isTail, UInt8.lt_iff_toNat_lt, UInt8.le_iff_toNat_le, UInt8.reduceToNat, charOf,
    Bool.and_eq_true, decide_eq_true_eq] at hr
  split_ifs at hr with h1 h2 ht2 h3 hs3 h4 hs4 <;> subst hr
  -- one goal per branch of the decoder, in its order: each valid sequence, then its fallback
  · exact .inr (encode_of_one h1 hi)
  · exact .inr (encode_of_two h2 ht2)
  · exact .inl rfl
  · obtain ⟨⟨hn1, hb1, hlow, hhigh⟩, hb2⟩ := hs3
    exact .inr (encode_of_three h3 ⟨hn1, hb1⟩ hlow hhigh hb2)
  · exact .inl rfl
  · obtain ⟨⟨⟨hn1, hb1, hlow, hhigh⟩, hb2⟩, hb3⟩ := hs4
    exact .inr (encode_of_four h4 ⟨hn1, hb1⟩ hlow hhigh hb2 hb3)
  · exact .inl rfl
  · exact .inl rfl

end Sound

/-- Where a character's encoding stands, `decodeAt` reads that character over its width. -/
theorem decodeAt_of_drop {bs : ByteArray} {i : ℕ} {c : Char} {post : List UInt8}
    (h : bs.data.toList.drop i = String.utf8EncodeChar c ++ post) :
    decodeAt bs i = (c, c.utf8Size) := by
  have hlen : i ≤ bs.data.toList.length := by
    by_contra hlt
    rw [List.drop_eq_nil_of_le (by omega)] at h
    have := congrArg List.length h
    simp only [List.length_nil, List.length_append, String.length_utf8EncodeChar] at this
    have := c.utf8Size_pos
    omega
  have hsplit : bs.data.toList = bs.data.toList.take i ++ String.utf8EncodeChar c ++ post := by
    rw [List.append_assoc, ← h, List.take_append_drop]
  have := decodeAt_encode hsplit
  rwa [List.length_take, Nat.min_eq_left hlen] at this

/-- The replacement character takes three bytes, so it is never what a one-byte read gives. -/
theorem replacement_utf8Size : '�'.utf8Size = 3 := by decide

/-- `decodeAt` reads the same at two offsets where the same characters' encodings stand. -/
theorem decodeAt_congr {bs bs' : ByteArray} {i i' : ℕ} (hi : i < bs.size) (hi' : i' < bs'.size)
    (h : ∀ c : Char, (∃ post, bs.data.toList.drop i = String.utf8EncodeChar c ++ post) ↔
      (∃ post, bs'.data.toList.drop i' = String.utf8EncodeChar c ++ post)) :
    decodeAt bs i = decodeAt bs' i' := by
  rcases decodeAt_sound hi with hbad | ⟨⟨post, hp⟩, -⟩
  · rcases decodeAt_sound hi' with hbad' | ⟨⟨post', hp'⟩, -⟩
    · rw [hbad, hbad']
    · -- an encoding stands at `i'`, so it stands at `i` too, and `decodeAt` would have read it
      obtain ⟨post, hp⟩ := (h _).mpr ⟨post', hp'⟩
      have := decodeAt_of_drop hp
      rw [hbad, Prod.mk.injEq] at this
      have hsize := this.2
      rw [← this.1, replacement_utf8Size] at hsize
      omega
  · obtain ⟨post', hp'⟩ := (h _).mp ⟨post, hp⟩
    rw [decodeAt_of_drop hp, decodeAt_of_drop hp']


/-- Every byte of an encoding after its first is a continuation byte. -/
theorem isTail_of_encode (c : Char) {k : ℕ} (hk0 : 1 ≤ k) (hk : k < (String.utf8EncodeChar c).length) :
    isTail (String.utf8EncodeChar c)[k] = true := by
  have hpos := c.utf8Size_pos
  have hle := c.utf8Size_le_four
  have hval : ∀ {vs : List ℕ}, (String.utf8EncodeChar c).map UInt8.toNat = vs →
      (String.utf8EncodeChar c)[k].toNat = vs.getD k 0 := by
    intro vs hvs
    rw [← hvs, List.getD_eq_getElem _ _ (by simpa using hk), List.getElem_map]
  simp only [String.length_utf8EncodeChar] at hk
  simp only [isTail, Bool.and_eq_true, decide_eq_true_eq, UInt8.le_iff_toNat_le, UInt8.reduceToNat]
  rcases (by omega : c.utf8Size = 1 ∨ c.utf8Size = 2 ∨ c.utf8Size = 3 ∨ c.utf8Size = 4) with
    hc | hc | hc | hc
  · omega
  · rw [hval (encode_two hc)]
    obtain rfl : k = 1 := by omega
    simp only [List.getD_cons_succ, List.getD_cons_zero]
    omega
  · rw [hval (encode_three hc)]
    rcases (by omega : k = 1 ∨ k = 2) with rfl | rfl <;>
      simp only [List.getD_cons_succ, List.getD_cons_zero] <;> omega
  · rw [hval (encode_four hc)]
    rcases (by omega : k = 1 ∨ k = 2 ∨ k = 3) with rfl | rfl | rfl <;>
      simp only [List.getD_cons_succ, List.getD_cons_zero] <;> omega

/-- An encoding that starts inside some bytes and runs past them meets their next byte as one of
its continuation bytes. -/
theorem encode_prefix_of_not_tail {d rest post : List UInt8} {b : UInt8} {c : Char}
    (hd : d ≠ []) (hb : isTail b = false) (h : d ++ b :: rest = String.utf8EncodeChar c ++ post) :
    ∃ post', d = String.utf8EncodeChar c ++ post' := by
  rcases List.append_eq_append_iff.mp h with ⟨a', henc, hrest⟩ | ⟨c', hd', -⟩
  · rcases a' with _ | ⟨a, a'⟩
    · exact ⟨[], by simpa using henc.symm⟩
    · -- the encoding would hold `b` as a continuation byte
      obtain rfl : a = b := (List.cons.inj hrest).1.symm
      have hlen : d.length < (String.utf8EncodeChar c).length := by rw [henc]; simp
      have hat : (String.utf8EncodeChar c)[d.length] = a := by simp [henc]
      have := isTail_of_encode c (List.length_pos_of_ne_nil hd) hlen
      rw [hat, hb] at this
      exact absurd this (by simp)
  · exact ⟨c', hd'⟩

/-- The size of a byte array is the length of its byte list. -/
theorem size_eq_length (bs : ByteArray) : bs.size = bs.data.toList.length := by simp

/-- The bytes of a slice, as a list. -/
theorem extract_toList (bs : ByteArray) (i j : ℕ) :
    (bs.extract i j).data.toList = (bs.data.toList.drop i).take (j - i) := by
  rw [ByteArray.data_extract, Array.toList_extract, List.extract]

/-- A byte that is not a continuation byte ends what `decodeAt` reads before it. -/
theorem decodeAt_append_of_not_tail {bs bs' : ByteArray} {rest : List UInt8} {b : UInt8} {i : ℕ}
    (h : bs.data.toList = bs'.data.toList ++ b :: rest) (hb : isTail b = false) (hi : i < bs'.size) :
    decodeAt bs i = decodeAt bs' i := by
  have hlen : bs.data.toList.length = bs'.data.toList.length + (rest.length + 1) := by
    rw [h, List.length_append, List.length_cons]
  have hi' := hi
  rw [size_eq_length] at hi
  have hdrop : bs.data.toList.drop i = bs'.data.toList.drop i ++ b :: rest := by
    rw [h, List.drop_append_of_le_length hi.le]
  have hne : bs'.data.toList.drop i ≠ [] := by simpa using hi
  refine decodeAt_congr (by rw [size_eq_length]; omega) hi' ?_
  intro c
  constructor
  · rintro ⟨post, hp⟩
    rw [hdrop] at hp
    exact encode_prefix_of_not_tail hne hb hp
  · rintro ⟨post, hp⟩
    exact ⟨post ++ b :: rest, by rw [hdrop, hp, List.append_assoc]⟩

/-- Past the end, `decodeAt` reads the byte `0`. -/
theorem decodeAt_of_le {bs : ByteArray} {i : ℕ} (hi : bs.size ≤ i) : decodeAt bs i = (Char.ofNat 0, 1) := by
  have hzero : byteAt bs i = 0 := by
    rw [byteAt_eq, List.getD_eq_default _ _ (by simpa using hi)]
  unfold decodeAt
  simp [hzero, charOf]

/-- `decodeAt` never looks before the offset it reads at. -/
theorem decodeAt_shift {bs bs' : ByteArray} {pre : List UInt8}
    (h : bs.data.toList = pre ++ bs'.data.toList) (j : ℕ) :
    decodeAt bs (pre.length + j) = decodeAt bs' j := by
  have hsize : bs.size = pre.length + bs'.size := by
    rw [size_eq_length, size_eq_length, h, List.length_append]
  by_cases hj : j < bs'.size
  · have hdrop : bs.data.toList.drop (pre.length + j) = bs'.data.toList.drop j := by
      rw [h, List.drop_append, List.drop_eq_nil_of_le (by omega), Nat.add_sub_cancel_left,
        List.nil_append]
    exact decodeAt_congr (by omega) hj fun c => by rw [hdrop]
  · rw [decodeAt_of_le (by omega), decodeAt_of_le (by omega)]

end TurnRelay.Utf8
