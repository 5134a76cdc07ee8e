import Mathlib
import TurnRelay.Proofs.Json.Slice
import TurnRelay.Proofs.Text.Utf8
import TurnRelay.Json.Write

/-!
# String literals read back

The writer escapes a character in one of three ways: a two-byte escape for the quote, the
backslash and the named controls, a `\uXXXX` escape for the other controls, the HTML-sensitive
characters and the two separators, and its own UTF-8 bytes otherwise. A byte string that is not
UTF-8 is written as the characters `decodeAt` reads from it, each byte outside a well-formed
sequence as `�`.

This module shows that the string reader undoes each escape (`stringBody_escapeChar`), and hence
that a literal written for any byte string reads back as the text of those bytes
(`parse_quoteLossy`). The reader is followed piece by piece over the byte list of the literal,
split as what was read before, the piece and what follows.

## Main results

* `unicodeEscape_data`, `hex4_of_unicodeEscape`: a `\uXXXX` escape holds the code unit's four
  hexadecimal digits, which `hex4` reads back.
* `stringBody_escapeChar`: an escaped character reads as itself.
* `stringBody_quoteLossyFrom`: the body of a lossy literal reads as `decodeRange` of its bytes.
* `parse_quoteLossy`: a lossy literal is a JSON string whose text is `decodeLossy` of the bytes.
-/

namespace TurnRelay.Json

/-! ## Hexadecimal escapes -/

/-- Past one digit, the hexadecimal digits of `n` are those of `n / 16` and then the last. -/
theorem toDigits_hex_snoc {n : ℕ} (hn : 16 ≤ n) :
    Nat.toDigits 16 n = Nat.toDigits 16 (n / 16) ++ [Nat.digitChar (n % 16)] := by
  rw [← Nat.toDigits_of_lt_base (Nat.mod_lt n (by norm_num)),
    Nat.toDigits_append_toDigits (by norm_num) (Nat.div_pos hn (by norm_num))
      (Nat.mod_lt n (by norm_num)), Nat.div_add_mod]

/-- The four digits `hexPadded 4` writes for a code unit, leading zeros included. -/
theorem hexPadded_four {n : ℕ} (hn : n < 0x10000) :
    (Text.hexPadded 4 n).toList = [Nat.digitChar (n / 4096), Nat.digitChar (n / 256 % 16),
      Nat.digitChar (n / 16 % 16), Nat.digitChar (n % 16)] := by
  have h0 : Nat.digitChar 0 = '0' := rfl
  rw [Text.hexPadded, String.toList_ofList]
  -- one case per number of significant digits
  rcases Nat.lt_or_ge n 16 with h1 | h1
  · rw [Nat.toDigits_of_lt_base h1]
    simp [Nat.div_eq_of_lt (show n < 4096 by omega), Nat.div_eq_of_lt (show n < 256 by omega),
      Nat.div_eq_of_lt h1, Nat.mod_eq_of_lt h1, h0]
  rcases Nat.lt_or_ge n 256 with h2 | h2
  · rw [toDigits_hex_snoc h1, Nat.toDigits_of_lt_base (by omega)]
    simp [Nat.div_eq_of_lt (show n < 4096 by omega), Nat.div_eq_of_lt h2, h0,
      Nat.mod_eq_of_lt (show n / 16 < 16 by omega)]
  rcases Nat.lt_or_ge n 4096 with h3 | h3
  · rw [toDigits_hex_snoc h1, toDigits_hex_snoc (by omega), Nat.toDigits_of_lt_base (by omega)]
    simp [Nat.div_eq_of_lt h3, h0, Nat.div_div_eq_div_mul,
      Nat.mod_eq_of_lt (show n / 256 < 16 by omega)]
  · rw [toDigits_hex_snoc h1, toDigits_hex_snoc (by omega), toDigits_hex_snoc (by omega),
      Nat.toDigits_of_lt_base (by omega)]
    simp [Nat.div_div_eq_div_mul]

/-- The byte of a hexadecimal digit. -/
def hexByte (d : ℕ) : UInt8 := (Nat.digitChar d).toNat.toUInt8

theorem encode_digitChar {d : ℕ} (hd : d < 16) :
    String.utf8EncodeChar (Nat.digitChar d) = [hexByte d] := by
  revert d
  decide

theorem hexValue_hexByte {d : ℕ} (hd : d < 16) : hexValue (hexByte d) = some d := by
  revert d
  decide

/-- The bytes of the escape `\uXXXX` of a code unit. -/
theorem unicodeEscape_data {n : ℕ} (hn : n < 0x10000) :
    (unicodeEscape n).data.toList = [0x5C, 0x75, hexByte (n / 4096), hexByte (n / 256 % 16),
      hexByte (n / 16 % 16), hexByte (n % 16)] := by
  rw [unicodeEscape, ascii, Utf8.toUTF8_data, String.toList_append, hexPadded_four hn]
  simp [encode_digitChar (show n / 4096 < 16 by omega),
    encode_digitChar (Nat.mod_lt _ (show 16 > 0 by norm_num))]
  rfl

theorem unicodeEscape_size {n : ℕ} (hn : n < 0x10000) : (unicodeEscape n).size = 6 := by
  rw [Utf8.size_eq_length, unicodeEscape_data hn]
  rfl

/-- Where an escape's bytes stand, `hex4` reads its code unit back. -/
theorem hex4_of_unicodeEscape {Q : ByteArray} {pre post : List UInt8} {n : ℕ} (hn : n < 0x10000)
    (h : Q.data.toList = pre ++ (unicodeEscape n).data.toList ++ post) :
    hex4 Q (pre.length + 2) = some n := by
  rw [unicodeEscape_data hn] at h
  have hb : ∀ j (hj : j < 6), Utf8.byteAt Q (pre.length + j) = getElem [(0x5C : UInt8), 0x75,
      hexByte (n / 4096), hexByte (n / 256 % 16), hexByte (n / 16 % 16), hexByte (n % 16)] j
      (by simpa using hj) :=
    fun j hj => Utf8.byteAt_of_eq h (by simpa using hj)
  simp only [hex4, Nat.add_assoc]
  rw [hb 2 (by norm_num), hb 3 (by norm_num), hb 4 (by norm_num), hb 5 (by norm_num)]
  simp [hexValue_hexByte (show n / 4096 < 16 by omega),
    hexValue_hexByte (Nat.mod_lt _ (show 16 > 0 by norm_num))]
  omega

/-! ## Reading one escaped character -/

section Pieces

variable {Q : ByteArray} {pre post : List UInt8}

theorem byteAt_head {b : UInt8} {rest : List UInt8} (h : Q.data.toList = pre ++ b :: rest ++ post) :
    Utf8.byteAt Q pre.length = b :=
  Utf8.byteAt_of_eq h (Nat.zero_lt_succ _)

theorem byteAt_second {b b' : UInt8} {rest : List UInt8}
    (h : Q.data.toList = pre ++ b :: b' :: rest ++ post) : Utf8.byteAt Q (pre.length + 1) = b' :=
  Utf8.byteAt_of_eq h (by simp)

/-- A two-byte escape reads as the character it names. -/
theorem stringBody_simple {e : UInt8} {ch : Char} (acc : String)
    (he : (e, ch) ∈ [((0x22 : UInt8), '"'), (0x5C, '\\'), (0x2F, '/'), (0x62, '\x08'),
      (0x66, '\x0c'), (0x6E, '\n'), (0x72, '\r'), (0x74, '\t')])
    (h : Q.data.toList = pre ++ [0x5C, e] ++ post) :
    stringBody Q pre.length acc = stringBody Q (pre.length + 2) (acc.push ch) := by
  have hsize := Utf8.size_of_eq h
  simp only [List.length_cons, List.length_nil] at hsize
  have h0 : Utf8.byteAt Q pre.length = 0x5C := byteAt_head h
  have h1 : Utf8.byteAt Q (pre.length + 1) = e := byteAt_second h
  rw [stringBody, dif_pos (by omega)]
  simp only [h0, h1]
  simp only [List.mem_cons, Prod.mk.injEq, List.not_mem_nil, or_false] at he
  rcases he with ⟨rfl, rfl⟩ | ⟨rfl, rfl⟩ | ⟨rfl, rfl⟩ | ⟨rfl, rfl⟩ | ⟨rfl, rfl⟩ | ⟨rfl, rfl⟩ |
    ⟨rfl, rfl⟩ | ⟨rfl, rfl⟩ <;>
    simp [show ¬ pre.length + 1 ≥ Q.size by omega]

/-- The escape of a code unit that is no surrogate reads as its character. -/
theorem stringBody_unicodeEscape {n : ℕ} (acc : String)
    (hn : n < 0xD800 ∨ (0xDFFF < n ∧ n < 0x10000))
    (h : Q.data.toList = pre ++ (unicodeEscape n).data.toList ++ post) :
    stringBody Q pre.length acc = stringBody Q (pre.length + 6) (acc.push (Char.ofNat n)) := by
  have hlt : n < 0x10000 := by omega
  have hhex := hex4_of_unicodeEscape hlt h
  have hsize := Utf8.size_of_eq h
  rw [unicodeEscape_data hlt] at h hsize
  simp only [List.length_cons, List.length_nil] at hsize
  have h0 : Utf8.byteAt Q pre.length = 0x5C := byteAt_head h
  have h1 : Utf8.byteAt Q (pre.length + 1) = 0x75 := byteAt_second h
  -- a unit outside the surrogates is a character of its own, with no partner to look for
  have hunit : escapedUnit Q pre.length n = (Char.ofNat n, pre.length + 6) := by
    have hhigh : ¬(0xD800 ≤ n ∧ n ≤ 0xDBFF) := by omega
    have hlow : ¬(0xDC00 ≤ n ∧ n ≤ 0xDFFF) := by omega
    simp [escapedUnit, hhigh, hlow]
  rw [stringBody, dif_pos (by omega)]
  simp [h0, h1, hhex, hunit, show ¬ pre.length + 1 ≥ Q.size by omega,
    show ¬ Q.size < pre.length + 6 by omega]

/-- A character other than the quote, the backslash and the controls stands for itself. -/
theorem stringBody_char {c : Char} (acc : String) (hq : c ≠ '"') (hb : c ≠ '\\')
    (hc : 0x20 ≤ c.toNat) (h : Q.data.toList = pre ++ String.utf8EncodeChar c ++ post) :
    stringBody Q pre.length acc = stringBody Q (pre.length + c.utf8Size) (acc.push c) := by
  have hsize := Utf8.size_of_eq h
  have hdec := Utf8.decodeAt_encode h
  obtain ⟨b, rest, hbr, hlead⟩ := Utf8.lead_byte c
  rw [hbr] at h hsize
  have h0 : Utf8.byteAt Q pre.length = b := byteAt_head h
  -- the lead byte is the character itself or at least 0xC2
  have hq' : b ≠ 0x22 := by
    rintro rfl
    rcases hlead with h' | h'
    · exact hq (by rw [← Char.ofNat_toNat c, ← h']; rfl)
    · simp at h'
  have hb' : b ≠ 0x5C := by
    rintro rfl
    rcases hlead with h' | h'
    · exact hb (by rw [← Char.ofNat_toNat c, ← h']; rfl)
    · simp at h'
  have hc' : ¬ b < 0x20 := by
    simp only [UInt8.lt_iff_toNat_lt, UInt8.reduceToNat]
    omega
  rw [stringBody, dif_pos (by simp at hsize; omega)]
  simp [h0, hq', hb', hc', hdec]

/-- The closing quote ends the string. -/
theorem stringBody_quote (acc : String) (h : Q.data.toList = pre ++ [0x22] ++ post) :
    stringBody Q pre.length acc = .ok (acc, pre.length + 1) := by
  have hsize := Utf8.size_of_eq h
  have h0 : Utf8.byteAt Q pre.length = 0x22 := byteAt_head h
  rw [stringBody, dif_pos (by simp at hsize; omega)]
  simp [h0]

/-- A two-byte escape, in the form `escapeChar` writes it. -/
theorem stringBody_twoBytes {piece : ByteArray} {e : UInt8} {ch : Char} (acc : String)
    (he : (e, ch) ∈ [((0x22 : UInt8), '"'), (0x5C, '\\'), (0x2F, '/'), (0x62, '\x08'),
      (0x66, '\x0c'), (0x6E, '\n'), (0x72, '\r'), (0x74, '\t')])
    (hp : piece.data.toList = [0x5C, e]) (h : Q.data.toList = pre ++ piece.data.toList ++ post) :
    stringBody Q pre.length acc = stringBody Q (pre.length + piece.size) (acc.push ch) := by
  rw [hp] at h
  rw [Utf8.size_eq_length, hp]
  exact stringBody_simple acc he h

/-- The escape `\uXXXX` of a character below the surrogates. -/
theorem stringBody_charEscape (c : Char) (acc : String) (hc : c.toNat < 0xD800)
    (h : Q.data.toList = pre ++ (unicodeEscape c.toNat).data.toList ++ post) :
    stringBody Q pre.length acc =
      stringBody Q (pre.length + (unicodeEscape c.toNat).size) (acc.push c) := by
  rw [unicodeEscape_size (by omega), stringBody_unicodeEscape acc (.inl hc) h, Char.ofNat_toNat]

/-- Where the escaped form of a character stands, the string reader reads that character. -/
theorem stringBody_escapeChar (c : Char) (acc : String)
    (h : Q.data.toList = pre ++ (escapeChar c).data.toList ++ post) :
    stringBody Q pre.length acc = stringBody Q (pre.length + (escapeChar c).size) (acc.push c) := by
  unfold escapeChar
  split
  -- the quote, the backslash and the named controls
  case h_1 => exact stringBody_twoBytes acc (by simp) rfl h
  case h_2 => exact stringBody_twoBytes acc (by simp) rfl h
  case h_3 => exact stringBody_twoBytes acc (by simp) rfl h
  case h_4 => exact stringBody_twoBytes acc (by simp) rfl h
  case h_5 => exact stringBody_twoBytes acc (by simp) rfl h
  case h_6 => exact stringBody_twoBytes acc (by simp) rfl h
  case h_7 => exact stringBody_twoBytes acc (by simp) rfl h
  -- the characters escaped for HTML and for JavaScript
  case h_8 => exact stringBody_charEscape _ acc (by decide) h
  case h_9 => exact stringBody_charEscape _ acc (by decide) h
  case h_10 => exact stringBody_charEscape _ acc (by decide) h
  case h_11 => exact stringBody_charEscape _ acc (by decide) h
  case h_12 => exact stringBody_charEscape _ acc (by decide) h
  -- every other character: controls get `\u00XX`, the rest stand for themselves
  case h_13 hq hb h3 h4 h5 h6 h7 h8 h9 h10 h11 h12 =>
    rw [escapeChar.eq_13 c hq hb h3 h4 h5 h6 h7 h8 h9 h10 h11 h12] at h
    split_ifs at h ⊢ with hc
    · exact stringBody_charEscape c acc (by omega) h
    · have hdata : c.toString.toUTF8.data.toList = String.utf8EncodeChar c := by
        rw [Utf8.toUTF8_data]
        simp
      rw [hdata] at h
      rw [Utf8.size_eq_length, hdata, String.length_utf8EncodeChar]
      exact stringBody_char acc hq hb (by omega) h

end Pieces

/-! ## Literals of byte strings -/

section Walk

variable (bs : ByteArray)

/-- What the walk writes for the character at `i`: the escape of the character read there, or
`�` for a byte outside well-formed UTF-8. -/
def lossyPiece (i : ℕ) : ByteArray :=
  if (Utf8.decodeAt bs i).1 == '�' && (Utf8.decodeAt bs i).2 == 1 then unicodeEscape 0xFFFD
  else escapeChar (Utf8.decodeAt bs i).1

theorem quoteLossyFrom_of_lt {i : ℕ} (hi : i < bs.size) (acc : ByteArray) :
    quoteLossyFrom bs i acc =
      quoteLossyFrom bs (i + (Utf8.decodeAt bs i).2) (acc ++ lossyPiece bs i) := by
  rw [quoteLossyFrom, dif_pos hi]
  rfl

theorem quoteLossyFrom_of_le {i : ℕ} (hi : bs.size ≤ i) (acc : ByteArray) :
    quoteLossyFrom bs i acc = acc := by
  rw [quoteLossyFrom, dif_neg (by omega)]

/-- The literal body a walk writes after `acc` is `acc` followed by what it writes alone. -/
theorem quoteLossyFrom_data (i : ℕ) (acc : ByteArray) :
    (quoteLossyFrom bs i acc).data.toList =
      acc.data.toList ++ (quoteLossyFrom bs i ByteArray.empty).data.toList := by
  induction h : bs.size - i using Nat.strong_induction_on generalizing i acc with
  | _ k ih =>
    by_cases hi : i < bs.size
    · have hw := Utf8.decodeAt_width_pos bs i
      have hnext := ih (bs.size - (i + (Utf8.decodeAt bs i).2)) (by omega)
        (i + (Utf8.decodeAt bs i).2)
      rw [quoteLossyFrom_of_lt bs hi, quoteLossyFrom_of_lt bs hi, hnext (acc ++ _) rfl,
        hnext (ByteArray.empty ++ _) rfl]
      simp
    · rw [quoteLossyFrom_of_le bs (by omega), quoteLossyFrom_of_le bs (by omega)]
      simp

/-- The reader reads the piece written for position `i` as the character `decodeAt` finds
there. -/
theorem stringBody_lossyPiece {Q : ByteArray} {pre post : List UInt8} (i : ℕ) (acc : String)
    (h : Q.data.toList = pre ++ (lossyPiece bs i).data.toList ++ post) :
    stringBody Q pre.length acc =
      stringBody Q (pre.length + (lossyPiece bs i).size) (acc.push (Utf8.decodeAt bs i).1) := by
  unfold lossyPiece at h ⊢
  split_ifs at h ⊢ with hbad
  · -- a byte outside UTF-8 is written as the escape of U+FFFD, which reads back as that character
    have hc : (Utf8.decodeAt bs i).1 = '�' := by
      simp only [Bool.and_eq_true, beq_iff_eq] at hbad
      exact hbad.1
    rw [unicodeEscape_size (by norm_num), stringBody_unicodeEscape acc (by norm_num) h, hc]
  · exact stringBody_escapeChar _ acc h

/-- The string reader reads the body the walk writes from `i`, up to the closing quote, as the
characters `decodeRange` finds from `i`. -/
theorem stringBody_quoteLossyFrom {Q : ByteArray} {pre post : List UInt8} (i : ℕ) (acc : String)
    (h : Q.data.toList = pre ++ (quoteLossyFrom bs i ByteArray.empty).data.toList ++ 0x22 :: post) :
    stringBody Q pre.length acc =
      .ok (Utf8.decodeRange bs i bs.size acc,
        pre.length + (quoteLossyFrom bs i ByteArray.empty).size + 1) := by
  -- induction on the bytes left to walk, with the bytes already read moved into `pre`
  induction hk : bs.size - i using Nat.strong_induction_on generalizing i pre acc with
  | _ k ih =>
    by_cases hi : i < bs.size
    · have hw := Utf8.decodeAt_width_pos bs i
      have hdata : (quoteLossyFrom bs i ByteArray.empty).data.toList =
          (lossyPiece bs i).data.toList ++
            (quoteLossyFrom bs (i + (Utf8.decodeAt bs i).2) ByteArray.empty).data.toList := by
        rw [quoteLossyFrom_of_lt bs hi, quoteLossyFrom_data]
        simp
      rw [hdata] at h
      -- the piece for `i` is read first, then the rest of the body after it
      have hpiece := stringBody_lossyPiece bs i acc
        (show Q.data.toList = pre ++ (lossyPiece bs i).data.toList ++
          ((quoteLossyFrom bs (i + (Utf8.decodeAt bs i).2) ByteArray.empty).data.toList ++
            0x22 :: post) by rw [h]; simp)
      have hrest := ih (bs.size - (i + (Utf8.decodeAt bs i).2)) (by omega)
        (i + (Utf8.decodeAt bs i).2) (acc.push (Utf8.decodeAt bs i).1)
        (show Q.data.toList = (pre ++ (lossyPiece bs i).data.toList) ++
          (quoteLossyFrom bs (i + (Utf8.decodeAt bs i).2) ByteArray.empty).data.toList ++
            0x22 :: post by rw [h]; simp) rfl
      have hsize : (quoteLossyFrom bs i ByteArray.empty).size = (lossyPiece bs i).size +
          (quoteLossyFrom bs (i + (Utf8.decodeAt bs i).2) ByteArray.empty).size := by
        rw [Utf8.size_eq_length, hdata, List.length_append, ← Utf8.size_eq_length,
          ← Utf8.size_eq_length]
      have hrange : Utf8.decodeRange bs i bs.size acc = Utf8.decodeRange bs
          (i + (Utf8.decodeAt bs i).2) bs.size (acc.push (Utf8.decodeAt bs i).1) := by
        rw [Utf8.decodeRange, dif_pos hi]
      rw [List.length_append, ← Utf8.size_eq_length] at hrest
      rw [hpiece, hrest, hsize, hrange]
      simp only [Nat.add_assoc]
    · rw [quoteLossyFrom_of_le bs (by omega)] at h ⊢
      rw [Utf8.decodeRange, dif_neg hi]
      exact stringBody_quote acc (by simpa using h)

end Walk

/-- A string literal written for any byte string reads back as the text of those bytes, each
byte outside well-formed UTF-8 read as U+FFFD. -/
theorem parse_quoteLossy (bs : ByteArray) :
    parse (quoteLossy bs) = .ok (.string ⟨0, (quoteLossy bs).size⟩ (Utf8.decodeLossy bs)) := by
  have hdata : (quoteLossy bs).data.toList =
      [0x22] ++ (quoteLossyFrom bs 0 ByteArray.empty).data.toList ++ [0x22] := by
    rw [quoteLossy, ByteArray.data_append, Array.toList_append, quoteLossyFrom_data]
    rfl
  have hsize : (quoteLossy bs).size = 1 + (quoteLossyFrom bs 0 ByteArray.empty).size + 1 := by
    rw [Utf8.size_eq_length, hdata, Utf8.size_eq_length]
    simp only [List.length_append, List.length_singleton]
  have hbody := stringBody_quoteLossyFrom bs 0 "" hdata
  have h0 : Utf8.byteAt (quoteLossy bs) 0 = 0x22 :=
    byteAt_head (show (quoteLossy bs).data.toList =
      [] ++ [0x22] ++ ((quoteLossyFrom bs 0 ByteArray.empty).data.toList ++ [0x22]) by
        rw [hdata]; simp)
  have hskip : skipSpace (quoteLossy bs) 0 = 0 := skipSpace_of_not_space (by rw [h0]; rfl)
  have hend : skipSpace (quoteLossy bs) (quoteLossy bs).size = (quoteLossy bs).size := by
    rw [skipSpace, if_neg (by omega)]
  simp only [List.length_singleton] at hbody
  rw [← hsize] at hbody
  refine parse_eq_ok.2 ⟨(quoteLossy bs).size, ?_, by rw [hend]⟩
  rw [hskip]
  exact value_succ_eq_ok.2 ⟨by omega, .string h0 hbody⟩

end TurnRelay.Json
