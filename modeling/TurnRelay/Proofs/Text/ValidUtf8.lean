import Mathlib
import TurnRelay.Proofs.Text.Utf8

/-!
# Valid UTF-8 is the encoding of a string

`isValid` holds of a byte string exactly when the byte string is the UTF-8 encoding of some
string (`isValid_iff`), and `decodeLossy` then reads that string back
(`toUTF8_decodeLossy`). Since the encoding is one to one, a byte string is the encoding of at most
one string, and of none when it is not valid.

From a valid offset on, each read is a character's whole encoding (`decodeAt_sound`), so the
bytes from there are the encodings of the characters `decodeRange` reads (`validFrom_encodes`);
conversely every character's encoding reads back whole and is no replacement
(`validFrom_encoded`).
-/

namespace TurnRelay.Utf8

/-- From a valid offset on, the bytes are the encodings of the characters read there. -/
theorem validFrom_encodes {bs : ByteArray} {i : ℕ} (h : validFrom bs i = true) :
    ∃ cs : List Char, bs.data.toList.drop i = cs.flatMap String.utf8EncodeChar ∧
      ∀ acc, decodeRange bs i bs.size acc = acc ++ String.ofList cs := by
  -- induction along the reads `validFrom` makes
  induction i using validFrom.induct bs with
  | case1 i hi _ hbad =>
    rw [validFrom, dif_pos hi, if_pos hbad] at h
    cases h
  | case2 i hi _ hgood ih =>
    rw [validFrom, dif_pos hi, if_neg hgood] at h
    obtain ⟨cs, hdrop, hread⟩ := ih h
    rcases decodeAt_sound hi with hrep | ⟨⟨post, hpost⟩, hwidth⟩
    · simp [hrep] at hgood
    · -- what is read at `i` is a character's whole encoding, and the rest follows it
      have hpost' : post = bs.data.toList.drop (i + (decodeAt bs i).2) := by
        rw [← List.drop_drop, hpost, hwidth, ← String.length_utf8EncodeChar,
          List.drop_left]
      refine ⟨(decodeAt bs i).1 :: cs, ?_, fun acc => ?_⟩
      · rw [hpost, List.flatMap_cons, hpost', hdrop]
      · rw [decodeRange, dif_pos hi, hread, ← String.toList_inj]
        simp
  | case3 i hi =>
    refine ⟨[], ?_, fun acc => ?_⟩
    · simp only [List.flatMap_nil, List.drop_eq_nil_iff, Array.length_toList, ByteArray.size_data]
      omega
    · rw [decodeRange, dif_neg hi]
      simp

/-- Where characters' encodings fill the bytes from an offset to the end, the bytes are valid
from there. -/
theorem validFrom_encoded (cs : List Char) {bs : ByteArray} {pre : List UInt8}
    (h : bs.data.toList = pre ++ cs.flatMap String.utf8EncodeChar) :
    validFrom bs pre.length = true := by
  induction cs generalizing pre with
  | nil =>
    have hsize : bs.size = pre.length := by
      rw [size_eq_length, h]
      simp
    rw [validFrom, dif_neg (by omega)]
  | cons c cs ih =>
    have hread : decodeAt bs pre.length = (c, c.utf8Size) :=
      @decodeAt_encode bs pre (cs.flatMap String.utf8EncodeChar) c (by simp [h])
    have hlt : pre.length < bs.size := by
      rw [size_eq_length, h]
      simp [c.utf8Size_pos]
    -- a replacement character takes three bytes, so a one-byte read is never one
    have hgood : ¬((c == '�' && c.utf8Size == 1) = true) := by
      intro hbad
      simp only [Bool.and_eq_true, beq_iff_eq] at hbad
      obtain ⟨rfl, hone⟩ := hbad
      simp [replacement_utf8Size] at hone
    have hrest := @ih (pre ++ String.utf8EncodeChar c) (by simp [h])
    rw [validFrom, dif_pos hlt]
    simp only [hread]
    rw [if_neg hgood]
    simpa using hrest

/-- A string's UTF-8 bytes are valid. -/
theorem isValid_toUTF8 (s : String) : isValid s.toUTF8 = true :=
  @validFrom_encoded s.toList s.toUTF8 [] (by rw [toUTF8_data, List.nil_append])

/-- A byte string is valid exactly when it is the UTF-8 encoding of a string. -/
theorem isValid_iff (bs : ByteArray) : isValid bs = true ↔ ∃ s : String, s.toUTF8 = bs := by
  constructor
  · intro h
    obtain ⟨cs, hdrop, -⟩ := validFrom_encodes h
    refine ⟨String.ofList cs, ?_⟩
    apply ByteArray.ext
    apply Array.ext'
    rw [toUTF8_data, String.toList_ofList, ← hdrop, List.drop_zero]
  · rintro ⟨s, rfl⟩
    exact isValid_toUTF8 s

/-- Valid bytes read back, with nothing replaced, as the string they encode. -/
theorem toUTF8_decodeLossy {bs : ByteArray} (h : isValid bs = true) : (decodeLossy bs).toUTF8 = bs := by
  obtain ⟨s, rfl⟩ := (isValid_iff bs).mp h
  rw [decodeLossy_toUTF8]

end TurnRelay.Utf8
