import Mathlib
import TurnRelay.Proofs.Json.Number
import TurnRelay.Proofs.Json.StringLiteral
import TurnRelay.Proofs.Json.Lexemes

/-!
# Written tokens read back

In every document the writer makes, a value is followed by the end, a comma or a closing
bracket (`Closes`). This module shows that the reader's scanners then take exactly what the
writer put for a scalar: the words `null`, `true` and `false` (`literal_word`), a string literal,
read as its string (`stringBody_quoted`), and a number.

A number is written from its shortest digits (`Decimal.jsonText`). Its text is spelled as JSON
allows (`Spelled`): integer digits with no leading zero unless the zero stands alone, and a
fraction or exponent only with digits. `jsonText_spelled` shows this of every text written, and
`number_spelled` that the number scanner takes all of such a literal, stage by stage as
`number_eq` splits it.
-/

namespace TurnRelay.Json

open Decimal

variable {Q : ByteArray} {pre post : List UInt8}

/-! ## What follows a written value -/

/-- Whether `post` may follow a written value: nothing, a comma or a closing bracket. -/
def Closes : List UInt8 → Bool
  | [] => true
  | b :: _ => b == 0x2C || b == 0x5D || b == 0x7D

/-- The byte standing where `b :: rest` starts, inside the source. -/
theorem byteAt_cons {b : UInt8} {rest : List UInt8} (h : Q.data.toList = pre ++ b :: rest) :
    Utf8.byteAt Q pre.length = b ∧ pre.length < Q.size := by
  have h' : Q.data.toList = pre ++ [b] ++ rest := by simpa using h
  have hsize := Utf8.size_of_eq h'
  have hbyte : Utf8.byteAt Q (pre.length + 0) = b := Utf8.byteAt_of_eq h' (by simp)
  rw [Nat.add_zero] at hbyte
  simp only [List.length_singleton] at hsize
  exact ⟨hbyte, by omega⟩

/-- White space ends at once before a byte that is not white space. -/
theorem skipSpace_at {b : UInt8} {rest : List UInt8} (h : Q.data.toList = pre ++ b :: rest)
    (hb : isSpace b = false) : skipSpace Q pre.length = pre.length := by
  obtain ⟨hbyte, hlt⟩ := byteAt_cons h
  rw [skipSpace, if_pos hlt, hbyte, hb]
  rfl

/-- Nor is there white space before what may follow a written value. -/
theorem skipSpace_closes (h : Q.data.toList = pre ++ post) (hpost : Closes post = true) :
    skipSpace Q pre.length = pre.length := by
  cases post with
  | nil =>
    have hsize := Utf8.size_of_eq (show Q.data.toList = pre ++ [] ++ [] by simpa using h)
    rw [skipSpace, if_neg (by simp at hsize; omega)]
  | cons b rest =>
    refine skipSpace_at h ?_
    simp only [Closes, Bool.or_eq_true, beq_iff_eq] at hpost
    rcases hpost with (rfl | rfl) | rfl <;> rfl

/-! ## Words -/

/-- A word standing in the source is read whole. -/
theorem literal_word (word : String) (h : Q.data.toList = pre ++ word.toUTF8.data.toList ++ post) :
    literal Q pre.length word = .ok (pre.length + word.toUTF8.size) := by
  have hsize := Utf8.size_of_eq h
  rw [← Utf8.size_eq_length] at hsize
  -- the loop compares the word byte by byte, `fuel` bytes being left
  have hloop : ∀ fuel k, k + fuel = word.toUTF8.size →
      literal.loop Q pre.length word word.toUTF8 k fuel = .ok (pre.length + word.toUTF8.size) := by
    intro fuel
    induction fuel with
    | zero =>
      intro k hk
      rw [literal.loop, ← hk, Nat.add_zero]
    | succ fuel ih =>
      intro k hk
      have hbyte : Utf8.byteAt Q (pre.length + k) = Utf8.byteAt word.toUTF8 k := by
        rw [Utf8.byteAt_of_eq h (by rw [← Utf8.size_eq_length]; omega), Utf8.byteAt_eq,
          List.getD_eq_getElem _ _ (by rw [← Utf8.size_eq_length]; omega)]
      rw [literal.loop, if_neg (by omega), if_neg (by omega), hbyte, beq_self_eq_true, if_pos rfl]
      exact ih (k + 1) (by omega)
  exact hloop _ 0 (Nat.zero_add _)

/-! ## String literals -/

/-- The bytes of a string literal's body: each character as the writer escapes it. -/
def escapedBytes (cs : List Char) : List UInt8 := cs.flatMap fun c => (escapeChar c).data.toList

theorem quote_data (s : String) : (quote s).data.toList = 0x22 :: escapedBytes s.toList ++ [0x22] := by
  have hbody : ∀ (cs : List Char) (acc : ByteArray),
      (cs.foldl (fun acc c => acc ++ escapeChar c) acc).data.toList =
        acc.data.toList ++ escapedBytes cs := by
    intro cs
    induction cs with
    | nil => intro acc; simp [escapedBytes]
    | cons c cs ih =>
      intro acc
      rw [List.foldl_cons, ih]
      simp [escapedBytes]
  have hq : (ascii "\"").data.toList = [0x22] := rfl
  rw [quote]
  simp only [ByteArray.data_append, Array.toList_append, hbody, hq]
  simp

theorem quote_size (s : String) : (quote s).size = (escapedBytes s.toList).length + 2 := by
  rw [Utf8.size_eq_length, quote_data]
  simp

/-- The string reader reads escaped characters up to the closing quote as those characters. -/
theorem stringBody_escaped (cs : List Char) (acc : String)
    (h : Q.data.toList = pre ++ escapedBytes cs ++ 0x22 :: post) :
    stringBody Q pre.length acc =
      .ok (acc ++ String.ofList cs, pre.length + (escapedBytes cs).length + 1) := by
  induction cs generalizing pre acc with
  | nil =>
    rw [stringBody_quote acc (by simpa [escapedBytes] using h)]
    simp [escapedBytes]
  | cons c cs ih =>
    have hdata : escapedBytes (c :: cs) = (escapeChar c).data.toList ++ escapedBytes cs := by
      simp [escapedBytes]
    rw [hdata] at h
    -- the first character, then the rest with what was read moved into `pre`
    rw [stringBody_escapeChar c acc (show Q.data.toList = pre ++ (escapeChar c).data.toList ++
      (escapedBytes cs ++ 0x22 :: post) by simp [h])]
    have hrest := ih (acc.push c)
      (show Q.data.toList = (pre ++ (escapeChar c).data.toList) ++ escapedBytes cs ++ 0x22 :: post by
        simp [h])
    rw [List.length_append, ← Utf8.size_eq_length] at hrest
    rw [hrest, hdata, List.length_append, ← Utf8.size_eq_length]
    congr 2
    · rw [← String.toList_inj]
      simp
    · omega

/-- A string literal written for `s` is read as `s`, up to its end. -/
theorem stringBody_quoted (s : String) (h : Q.data.toList = pre ++ (quote s).data.toList ++ post) :
    stringBody Q (pre.length + 1) "" = .ok (s, pre.length + (quote s).size) := by
  rw [quote_data] at h
  have hbody := stringBody_escaped s.toList ""
    (show Q.data.toList = (pre ++ [0x22]) ++ escapedBytes s.toList ++ 0x22 :: post by simp [h])
  simp only [List.length_append, List.length_singleton, String.empty_append,
    String.ofList_toList] at hbody
  rw [hbody, quote_size]
  congr 2
  omega

/-! ## Number literals -/

/-- The byte of an ASCII character. -/
def asciiByte (c : Char) : UInt8 := UInt8.ofNat c.toNat

@[simp] theorem asciiByte_zero : asciiByte '0' = 0x30 := rfl
@[simp] theorem asciiByte_minus : asciiByte '-' = 0x2D := rfl
@[simp] theorem asciiByte_plus : asciiByte '+' = 0x2B := rfl
@[simp] theorem asciiByte_point : asciiByte '.' = 0x2E := rfl
@[simp] theorem asciiByte_e : asciiByte 'e' = 0x65 := rfl

/-- Different ASCII characters have different bytes. -/
theorem asciiByte_inj {c d : Char} (hc : c.toNat ≤ 127) (hd : d.toNat ≤ 127)
    (h : asciiByte c = asciiByte d) : c = d := by
  have := congrArg UInt8.toNat h
  simp only [asciiByte] at this
  apply Char.toNat_inj.mp
  simpa [Nat.mod_eq_of_lt (show c.toNat < 256 by omega),
    Nat.mod_eq_of_lt (show d.toNat < 256 by omega)] using this

theorem utf8EncodeChar_ascii {c : Char} (hc : c.toNat ≤ 127) :
    String.utf8EncodeChar c = [asciiByte c] := by
  simp [String.utf8EncodeChar, hc, asciiByte]

theorem isDigitByte_ascii {c : Char} (hc : c.isDigit = true) : isDigitByte (asciiByte c) = true := by
  have hb : 48 ≤ c.toNat ∧ c.toNat ≤ 57 := by
    simpa [Char.isDigit, Char.le_def, UInt32.le_iff_toNat_le] using hc
  have hn : (UInt8.ofNat c.toNat).toNat = c.toNat := by
    simp
    omega
  simp only [isDigitByte, asciiByte, Bool.and_eq_true, decide_eq_true_eq, UInt8.le_iff_toNat_le, hn]
  exact ⟨by simpa using hb.1, by simpa using hb.2⟩

theorem toNat_le_of_isDigit {c : Char} (hc : c.isDigit = true) : c.toNat ≤ 127 := by
  have hb : 48 ≤ c.toNat ∧ c.toNat ≤ 57 := by
    simpa [Char.isDigit, Char.le_def, UInt32.le_iff_toNat_le] using hc
  omega

/-- The characters of an optional fraction: a point and the fraction's digits. -/
def fracChars (frac : Option (List Char)) : List Char := (frac.map ('.' :: ·)).getD []

/-- The characters of an optional exponent: `e`, its sign and its digits. -/
def expChars (ex : Option (Bool × List Char)) : List Char :=
  (ex.map fun p => 'e' :: (if p.1 then '-' else '+') :: p.2).getD []

theorem literalChars_eq (neg : Bool) (whole : List Char) (frac : Option (List Char))
    (ex : Option (Bool × List Char)) :
    literalChars neg whole frac ex =
      (if neg then ['-'] else []) ++ (whole ++ (fracChars frac ++ expChars ex)) := rfl

/-- The parts of a number literal as JSON spells them: integer digits with no leading zero unless
the zero stands alone, and a fraction or an exponent only with digits. -/
structure Spelled (whole : List Char) (frac : Option (List Char)) (ex : Option (Bool × List Char)) :
    Prop where
  whole_ne : whole ≠ []
  whole_digits : ∀ c ∈ whole, c.isDigit = true
  single_zero : whole.head? = some '0' → whole = ['0']
  frac_digits : ∀ ds ∈ frac, ds ≠ [] ∧ ∀ c ∈ ds, c.isDigit = true
  exp_digits : ∀ e ∈ ex, e.2 ≠ [] ∧ ∀ c ∈ e.2, c.isDigit = true

/-- Every character of a spelled literal is ASCII. -/
theorem Spelled.ascii {whole : List Char} {frac : Option (List Char)}
    {ex : Option (Bool × List Char)} (hs : Spelled whole frac ex) (neg : Bool) :
    ∀ c ∈ literalChars neg whole frac ex, c.toNat ≤ 127 := by
  intro c hc
  rw [literalChars_eq] at hc
  simp only [List.mem_append] at hc
  rcases hc with hc | hc | hc | hc
  · split at hc <;> simp_all
  · exact toNat_le_of_isDigit (hs.whole_digits c hc)
  · rcases frac with _ | ds
    · simp [fracChars] at hc
    · simp only [fracChars, Option.map_some, Option.getD_some, List.mem_cons] at hc
      rcases hc with rfl | hc
      · decide
      · exact toNat_le_of_isDigit ((hs.frac_digits ds rfl).2 c hc)
  · rcases ex with _ | ⟨sgn, ds⟩
    · simp [expChars] at hc
    · simp only [expChars, Option.map_some, Option.getD_some, List.mem_cons] at hc
      rcases hc with rfl | rfl | hc
      · decide
      · split <;> decide
      · exact toNat_le_of_isDigit ((hs.exp_digits (sgn, ds) rfl).2 c hc)

/-- The bytes of an ASCII text are its characters'. -/
theorem toUTF8_data_ascii {t : String} (ht : ∀ c ∈ t.toList, c.toNat ≤ 127) :
    t.toUTF8.data.toList = t.toList.map asciiByte := by
  rw [Utf8.toUTF8_data]
  generalize t.toList = cs at ht ⊢
  induction cs with
  | nil => rfl
  | cons c cs ih =>
    rw [List.flatMap_cons, List.map_cons, utf8EncodeChar_ascii (ht c (by simp)),
      ih fun c hc => ht c (by simp [hc])]
    rfl

/-- Digits run up to the first byte that is not one. -/
theorem skipDigits_run {ds : List UInt8} (h : Q.data.toList = pre ++ ds ++ post)
    (hds : ∀ b ∈ ds, isDigitByte b = true) (hpost : ∀ b ∈ post.head?, isDigitByte b = false) :
    skipDigits Q pre.length = pre.length + ds.length := by
  induction ds generalizing pre with
  | nil =>
    cases post with
    | nil =>
      have hsize := Utf8.size_of_eq h
      rw [skipDigits, if_neg (by simp at hsize; omega)]
      rfl
    | cons b rest =>
      have h' : Q.data.toList = pre ++ [b] ++ rest := by simpa using h
      have hsize := Utf8.size_of_eq h'
      have hbyte : Utf8.byteAt Q (pre.length + 0) = b := Utf8.byteAt_of_eq h' (by simp)
      rw [Nat.add_zero] at hbyte
      rw [skipDigits, if_pos (by simp at hsize; omega), hbyte, hpost b rfl]
      rfl
  | cons d ds ih =>
    have h' : Q.data.toList = pre ++ [d] ++ (ds ++ post) := by simpa using h
    have hsize := Utf8.size_of_eq h'
    have hbyte : Utf8.byteAt Q (pre.length + 0) = d := Utf8.byteAt_of_eq h' (by simp)
    rw [Nat.add_zero] at hbyte
    have hrest := ih (show Q.data.toList = (pre ++ [d]) ++ ds ++ post by simpa using h)
      fun b hb => hds b (by simp [hb])
    rw [skipDigits, if_pos (by simp at hsize; omega), hbyte, hds d (by simp), if_pos rfl]
    rw [List.length_append, List.length_singleton] at hrest
    rw [hrest, List.length_cons]
    omega

/-- A byte that may follow a written value is no digit, point or exponent mark. -/
theorem Closes.stops (hpost : Closes post = true) :
    ∀ b ∈ post.head?, isDigitByte b = false ∧ b ≠ 0x2E ∧ b ≠ 0x65 ∧ b ≠ 0x45 := by
  intro b hb
  cases post with
  | nil => cases hb
  | cons b' rest =>
    simp only [List.head?_cons, Option.mem_def, Option.some.injEq] at hb
    subst hb
    simp only [Closes, Bool.or_eq_true, beq_iff_eq] at hpost
    rcases hpost with (rfl | rfl) | rfl <;> decide

section Stages

variable {whole : List Char} {frac : Option (List Char)} {ex : Option (Bool × List Char)}

/-- A scanner's test "a byte is there and passes `f`" at the start of `rest`. -/
theorem test_at {rest : List UInt8} (h : Q.data.toList = pre ++ rest) (f : UInt8 → Bool) :
    (decide (pre.length < Q.size) && f (Utf8.byteAt Q pre.length)) = (rest.head?.map f).getD false := by
  cases rest with
  | nil =>
    have hsize := Utf8.size_of_eq (show Q.data.toList = pre ++ [] ++ [] by simpa using h)
    simp at hsize
    simp [hsize]
  | cons b rest =>
    obtain ⟨hbyte, hlt⟩ := byteAt_cons h
    simp [hbyte, hlt]

/-- What follows a literal's exponent, or the literal when it has none: no exponent mark. -/
theorem Closes.no_exponent (hpost : Closes post = true) :
    ((post.head?).map fun b => b == 0x65 || b == 0x45).getD false = false := by
  cases post with
  | nil => rfl
  | cons b rest =>
    obtain ⟨-, -, he, hE⟩ := Closes.stops hpost b rfl
    simp [he, hE]

/-- What follows the digits of a written literal's integer part or fraction is no digit. -/
theorem Closes.no_digit_after (hpost : Closes post = true) (tail : List Char)
    (htail : ∀ c ∈ tail.head?, c = '.' ∨ c = 'e') :
    ∀ b ∈ (tail.map asciiByte ++ post).head?, isDigitByte b = false := by
  intro b hb
  cases tail with
  | nil => exact (Closes.stops hpost b (by simpa using hb)).1
  | cons c tail =>
    simp only [List.map_cons, List.cons_append, List.head?_cons, Option.mem_def,
      Option.some.injEq] at hb
    subst hb
    rcases htail c rfl with rfl | rfl <;> rfl

theorem expChars_head (ex : Option (Bool × List Char)) :
    ∀ c ∈ (expChars ex).head?, c = '.' ∨ c = 'e' := by
  intro c hc
  rcases ex with _ | ⟨sgn, es⟩ <;> simp [expChars] at hc
  simp [← hc]

theorem fracChars_head (frac : Option (List Char)) (ex : Option (Bool × List Char)) :
    ∀ c ∈ (fracChars frac ++ expChars ex).head?, c = '.' ∨ c = 'e' := by
  intro c hc
  rcases frac with _ | ds <;> rcases ex with _ | ⟨sgn, es⟩ <;>
    simp [fracChars, expChars] at hc <;> simp [← hc]

/-- The exponent scanner takes a written exponent, or nothing when none is written. -/
theorem exponentPart_spelled (hex : ∀ e ∈ ex, e.2 ≠ [] ∧ ∀ c ∈ e.2, c.isDigit = true)
    (h : Q.data.toList = pre ++ (expChars ex).map asciiByte ++ post) (hpost : Closes post = true) :
    exponentPart Q pre.length = .ok (pre.length + (expChars ex).length) := by
  rcases ex with _ | ⟨sgn, ds⟩
  · -- no exponent: what follows is no exponent mark
    simp only [expChars, Option.map_none, Option.getD_none, List.map_nil, List.append_nil,
      List.length_nil, Nat.add_zero] at h ⊢
    rw [exponentPart, test_at h (fun b => b == 0x65 || b == 0x45), Closes.no_exponent hpost]
    rfl
  · obtain ⟨hne, hdigits⟩ := hex (sgn, ds) rfl
    obtain ⟨d, ds', rfl⟩ := List.exists_cons_of_ne_nil hne
    set sb : UInt8 := if sgn then 0x2D else 0x2B with hsb
    have hbytes : (expChars (some (sgn, d :: ds'))).map asciiByte =
        [0x65, sb, asciiByte d] ++ ds'.map asciiByte := by
      have hsign : asciiByte (if sgn then '-' else '+') = sb := by
        rw [hsb]
        split <;> rfl
      simp only [expChars, Option.map_some, Option.getD_some, List.map_cons, hsign]
      rfl
    have hlen : (expChars (some (sgn, d :: ds'))).length = ds'.length + 3 := by simp [expChars]
    rw [hbytes] at h
    have h' : Q.data.toList = pre ++ ([0x65, sb, asciiByte d] ++ ds'.map asciiByte) ++ post := h
    have hsize := Utf8.size_of_eq h'
    simp only [List.length_append, List.length_cons, List.length_nil, List.length_map] at hsize
    -- the mark, the sign and the first digit, then the other digits
    have h0 : Utf8.byteAt Q (pre.length + 0) = 0x65 := Utf8.byteAt_of_eq h' (by simp)
    have h1 : Utf8.byteAt Q (pre.length + 1) = sb := Utf8.byteAt_of_eq h' (by simp)
    have h2 : Utf8.byteAt Q (pre.length + 2) = asciiByte d := Utf8.byteAt_of_eq h' (by simp)
    have hrun := skipDigits_run
      (show Q.data.toList = (pre ++ [0x65, sb, asciiByte d]) ++ ds'.map asciiByte ++ post by simp [h])
      (fun b hb => by
        obtain ⟨c, hc, rfl⟩ := List.mem_map.1 hb
        exact isDigitByte_ascii (hdigits c (by simp [hc])))
      (fun b hb => (Closes.stops hpost b hb).1)
    simp only [List.length_append, List.length_cons, List.length_nil, List.length_map] at hrun
    have hsgn : (sb == 0x2B || sb == 0x2D) = true := by
      rw [hsb]
      split <;> rfl
    rw [Nat.add_zero] at h0
    rw [exponentPart]
    simp only [h0, h1, h2, hsgn, isDigitByte_ascii (hdigits d (by simp)),
      show pre.length < Q.size by omega, show pre.length + 1 < Q.size by omega, decide_true,
      beq_self_eq_true, Bool.true_or, Bool.and_self, if_pos]
    rw [if_neg (by omega), hlen,
      show pre.length + (ds'.length + 3) = pre.length + (0 + 1 + 1 + 1) + ds'.length by omega, ← hrun]

/-- The fraction scanner takes a written fraction and then the exponent. -/
theorem fractionPart_spelled (hfrac : ∀ ds ∈ frac, ds ≠ [] ∧ ∀ c ∈ ds, c.isDigit = true)
    (hex : ∀ e ∈ ex, e.2 ≠ [] ∧ ∀ c ∈ e.2, c.isDigit = true)
    (h : Q.data.toList = pre ++ (fracChars frac ++ expChars ex).map asciiByte ++ post)
    (hpost : Closes post = true) :
    fractionPart Q pre.length = .ok (pre.length + (fracChars frac ++ expChars ex).length) := by
  rcases frac with _ | ds
  · -- no fraction: an exponent mark or what follows the value comes next, no point
    have hnone : fracChars none = [] := rfl
    rw [hnone, List.nil_append] at h ⊢
    have hpoint : ((((expChars ex).map asciiByte ++ post).head?).map
        fun b => b == 0x2E).getD false = false := by
      rcases ex with _ | ⟨sgn, es⟩
      · cases post with
        | nil => rfl
        | cons b rest =>
          obtain ⟨-, hp, -, -⟩ := Closes.stops hpost b rfl
          simp [expChars, hp]
      · simp [expChars]
    rw [fractionPart, test_at (show Q.data.toList = pre ++ ((expChars ex).map asciiByte ++ post) by
      simpa using h) (fun b => b == 0x2E), hpoint]
    exact exponentPart_spelled hex h hpost
  · obtain ⟨hne, hdigits⟩ := hfrac ds rfl
    obtain ⟨d, ds', rfl⟩ := List.exists_cons_of_ne_nil hne
    have hbytes : (fracChars (some (d :: ds')) ++ expChars ex).map asciiByte =
        [0x2E, asciiByte d] ++ (ds'.map asciiByte ++ (expChars ex).map asciiByte) := by
      simp only [fracChars, Option.map_some, Option.getD_some, List.cons_append, List.map_cons,
        List.map_append]
      rfl
    rw [hbytes] at h
    have hsize := Utf8.size_of_eq h
    simp only [List.length_append, List.length_cons, List.length_nil, List.length_map] at hsize
    have h0 : Utf8.byteAt Q (pre.length + 0) = 0x2E := Utf8.byteAt_of_eq h (by simp)
    have h1 : Utf8.byteAt Q (pre.length + 1) = asciiByte d := Utf8.byteAt_of_eq h (by simp)
    rw [Nat.add_zero] at h0
    -- the digits after the first run up to the exponent or the end of the value
    have hrun := skipDigits_run
      (show Q.data.toList = (pre ++ [0x2E, asciiByte d]) ++ ds'.map asciiByte ++
        ((expChars ex).map asciiByte ++ post) by simp [h])
      (fun b hb => by
        obtain ⟨c, hc, rfl⟩ := List.mem_map.1 hb
        exact isDigitByte_ascii (hdigits c (by simp [hc])))
      (Closes.no_digit_after hpost (expChars ex) (expChars_head ex))
    simp only [List.length_append, List.length_cons, List.length_nil, List.length_map] at hrun
    have hexp := exponentPart_spelled hex
      (show Q.data.toList = (pre ++ [0x2E, asciiByte d] ++ ds'.map asciiByte) ++
        (expChars ex).map asciiByte ++ post by simp [h]) hpost
    simp only [List.length_append, List.length_cons, List.length_nil, List.length_map] at hexp
    rw [fractionPart]
    simp only [h0, h1, isDigitByte_ascii (hdigits d (by simp)), show pre.length < Q.size by omega,
      decide_true, beq_self_eq_true, Bool.and_self, if_pos]
    rw [if_neg (by omega), show pre.length + 2 = pre.length + (0 + 1 + 1) by omega, hrun, hexp]
    simp only [fracChars, Option.map_some, Option.getD_some, List.cons_append, List.length_cons,
      List.length_append]
    congr 1
    omega

/-- The scanner of a number's digits takes a written integer part, then the fraction and the
exponent. -/
theorem digitsPart_spelled (hs : Spelled whole frac ex)
    (h : Q.data.toList = pre ++ (whole ++ (fracChars frac ++ expChars ex)).map asciiByte ++ post)
    (hpost : Closes post = true) :
    digitsPart Q pre.length = .ok (pre.length + (whole ++ (fracChars frac ++ expChars ex)).length) := by
  obtain ⟨d, ds, rfl⟩ := List.exists_cons_of_ne_nil hs.whole_ne
  obtain ⟨h0, -⟩ := byteAt_cons (show Q.data.toList = pre ++
    (asciiByte d :: ((ds ++ (fracChars frac ++ expChars ex)).map asciiByte ++ post)) by simpa using h)
  have hdigit := hs.whole_digits d (by simp)
  by_cases hzero : d = '0'
  · -- a lone zero, then the fraction
    subst hzero
    have hds : ds = [] := by simpa using hs.single_zero rfl
    subst hds
    have hfrac := fractionPart_spelled hs.frac_digits hs.exp_digits
      (show Q.data.toList = (pre ++ [0x30]) ++ (fracChars frac ++ expChars ex).map asciiByte ++ post by
        simpa using h) hpost
    rw [digitsPart, h0, asciiByte_zero, beq_self_eq_true, if_pos rfl,
      show pre.length + 1 = (pre ++ [0x30]).length by simp, hfrac]
    simp only [List.length_append, List.cons_append, List.nil_append, List.length_cons,
      List.length_nil]
    congr 1
    omega
  · -- a run of digits that starts with another digit, then the fraction
    have hne : (asciiByte d == 0x30) = false := by
      rw [beq_eq_false_iff_ne, ← asciiByte_zero]
      exact fun heq => hzero (asciiByte_inj (toNat_le_of_isDigit hdigit) (by decide) heq)
    have hrun := skipDigits_run
      (show Q.data.toList = (pre ++ [asciiByte d]) ++ ds.map asciiByte ++
        ((fracChars frac ++ expChars ex).map asciiByte ++ post) by simpa using h)
      (fun b hb => by
        obtain ⟨c, hc, rfl⟩ := List.mem_map.1 hb
        exact isDigitByte_ascii (hs.whole_digits c (by simp [hc])))
      (Closes.no_digit_after hpost _ (fracChars_head frac ex))
    have hfrac := fractionPart_spelled hs.frac_digits hs.exp_digits
      (show Q.data.toList = (pre ++ (d :: ds).map asciiByte) ++
        (fracChars frac ++ expChars ex).map asciiByte ++ post by simpa using h) hpost
    simp only [List.length_append, List.length_map, List.length_cons, List.length_nil,
      Nat.zero_add] at hrun hfrac
    rw [digitsPart, h0, hne, isDigitByte_ascii hdigit]
    simp only [Bool.false_eq_true, if_false, if_true]
    rw [hrun, show pre.length + 1 + ds.length = pre.length + (ds.length + 1) by omega, hfrac]
    simp only [List.cons_append, List.length_cons, List.length_append]
    congr 1
    omega

/-- The number scanner takes a whole literal spelled as JSON allows, up to what follows it. -/
theorem number_spelled (neg : Bool) (hs : Spelled whole frac ex)
    (h : Q.data.toList = pre ++ (literalChars neg whole frac ex).map asciiByte ++ post)
    (hpost : Closes post = true) :
    number Q pre.length = .ok (pre.length + (literalChars neg whole frac ex).length) := by
  obtain ⟨d, ds, hwhole⟩ := List.exists_cons_of_ne_nil hs.whole_ne
  have hd : isDigitByte (asciiByte d) = true := isDigitByte_ascii (hs.whole_digits d (by simp [hwhole]))
  rw [number_eq, literalChars_eq]
  rw [literalChars_eq] at h
  cases neg
  · -- no sign: the literal starts with a digit
    simp only [Bool.false_eq_true, if_false, List.nil_append] at h ⊢
    obtain ⟨h0, hlt⟩ := byteAt_cons (show Q.data.toList = pre ++
      (asciiByte d :: ((ds ++ (fracChars frac ++ expChars ex)).map asciiByte ++ post)) by
        simpa [hwhole] using h)
    have hminus : (asciiByte d == 0x2D) = false := by
      cases hb : asciiByte d == 0x2D
      · rfl
      · rw [beq_iff_eq.1 hb] at hd
        cases hd
    simp only [h0, hminus, Bool.false_eq_true, if_false]
    rw [if_neg (by omega)]
    exact digitsPart_spelled hs h hpost
  · -- a minus sign, then the literal without it
    simp only [if_true, List.singleton_append, List.map_cons, asciiByte_minus] at h ⊢
    obtain ⟨h0, -⟩ := byteAt_cons (show Q.data.toList = pre ++
      (0x2D :: ((whole ++ (fracChars frac ++ expChars ex)).map asciiByte ++ post)) by simpa using h)
    obtain ⟨-, hlt⟩ := byteAt_cons (show Q.data.toList = (pre ++ [0x2D]) ++
      (asciiByte d :: ((ds ++ (fracChars frac ++ expChars ex)).map asciiByte ++ post)) by
        simpa [hwhole] using h)
    simp only [List.length_append, List.length_singleton] at hlt
    have hdigits := digitsPart_spelled hs (show Q.data.toList = (pre ++ [0x2D]) ++
      (whole ++ (fracChars frac ++ expChars ex)).map asciiByte ++ post by simpa using h) hpost
    simp only [List.length_append, List.length_singleton] at hdigits
    simp only [h0, beq_self_eq_true, if_true]
    rw [if_neg (by omega), hdigits, List.length_cons]
    simp only [List.length_append]
    congr 1
    omega

end Stages

/-! ## Written numbers -/

/-- The decimal digits of a positive number do not start with a zero. -/
theorem toDigits_head_ne_zero {d : ℕ} (hd : 0 < d) : (Nat.toDigits 10 d).head? ≠ some '0' := by
  induction d using Nat.strong_induction_on with
  | _ d ih =>
    by_cases hlt : d < 10
    · rw [Nat.toDigits_of_lt_base hlt]
      have hsmall : ∀ n < 10, 0 < n → n.digitChar ≠ '0' := by decide
      simpa using hsmall d hlt hd
    · -- the leading digits are those of `d / 10`
      have hq : 0 < d / 10 := by omega
      have hne : Nat.toDigits 10 (d / 10) ≠ [] := List.ne_nil_of_length_pos Nat.length_toDigits_pos
      rw [show d = 10 * (d / 10) + d % 10 by omega,
        ← Nat.toDigits_append_toDigits (by norm_num) hq (Nat.mod_lt _ (by norm_num)),
        List.head?_append_of_ne_nil _ hne]
      exact ih (d / 10) (by omega) hq

theorem head?_take_of_pos {l : List Char} {n : ℕ} (hn : 0 < n) : (l.take n).head? = l.head? := by
  cases l with
  | nil => simp
  | cons c cs =>
    obtain ⟨m, rfl⟩ : ∃ m, n = m + 1 := ⟨n - 1, by omega⟩
    rfl

/-- The positional text of `d · 10 ^ k`, for `d` positive, is spelled as JSON allows. -/
theorem positional_spelled {d : ℕ} (hd : 0 < d) (k : ℤ) :
    ∃ whole frac, (positional d k).toList = literalChars false whole frac none ∧
      Spelled whole frac none := by
  have hds := digitText_toList d
  have hdigit : ∀ c ∈ Nat.toDigits 10 d, c.isDigit = true := fun c hc => isDigit_of_mem_toDigits hc
  have hne : Nat.toDigits 10 d ≠ [] := List.ne_nil_of_length_pos Nat.length_toDigits_pos
  have hhead := toDigits_head_ne_zero hd
  unfold positional
  split_ifs with hk
  · -- an integer: the digits, then zeros
    refine ⟨Nat.toDigits 10 d ++ List.replicate k.toNat '0', none, by simp [literalChars, hds],
      by simp [hne], fun c hc => ?_, fun h0 => ?_, by simp, by simp⟩
    · rcases List.mem_append.mp hc with hc | hc
      · exact hdigit c hc
      · rw [List.eq_of_mem_replicate hc]
        rfl
    · rw [List.head?_append_of_ne_nil _ hne] at h0
      exact absurd h0 hhead
  · have hlength : (digitText d).length = (Nat.toDigits 10 d).length := by
      rw [← String.length_toList, hds]
    dsimp only
    split_ifs with hlen
    · -- a point inside the digits
      rw [hlength] at hlen
      set n := (Nat.toDigits 10 d).length - k.natAbs with hn
      refine ⟨(Nat.toDigits 10 d).take n, some ((Nat.toDigits 10 d).drop n), ?_,
        ?_, fun c hc => hdigit c (List.mem_of_mem_take hc), fun h0 => ?_, fun ds hds' => ?_,
        by simp⟩
      · simp [literalChars, hds, hlength, hn]
      · simp only [ne_eq, List.take_eq_nil_iff, not_or]
        exact ⟨by omega, hne⟩
      · rw [head?_take_of_pos (by omega)] at h0
        exact absurd h0 hhead
      · simp only [Option.mem_def, Option.some.injEq] at hds'
        subst hds'
        refine ⟨?_, fun c hc => hdigit c (List.mem_of_mem_drop hc)⟩
        rw [← List.length_pos_iff, List.length_drop]
        omega
    · -- a point before the digits, after `0.` and zeros
      refine ⟨['0'], some (List.replicate (k.natAbs - (digitText d).length) '0' ++
        Nat.toDigits 10 d), ?_, by simp, by simp [isDigit_zero], fun _ => rfl, fun ds hds' => ?_,
        by simp⟩
      · simp [literalChars, hds]
      · simp only [Option.mem_def, Option.some.injEq] at hds'
        subst hds'
        refine ⟨by simp [hne], fun c hc => ?_⟩
        rcases List.mem_append.mp hc with hc | hc
        · rw [List.eq_of_mem_replicate hc]
          rfl
        · exact hdigit c hc

/-- The exponent text of `d · 10 ^ k`, for `d` positive and at any exponent width, is spelled as
JSON allows. -/
theorem withExponent_spelled {d : ℕ} (hd : 0 < d) (k : ℤ) (w : ℕ) :
    ∃ whole frac ex, (withExponent d k w).toList = literalChars false whole frac (some ex) ∧
      Spelled whole frac (some ex) := by
  have hds := digitText_toList d
  have hdigit : ∀ c ∈ Nat.toDigits 10 d, c.isDigit = true := fun c hc => isDigit_of_mem_toDigits hc
  have hne : Nat.toDigits 10 d ≠ [] := List.ne_nil_of_length_pos Nat.length_toDigits_pos
  have hhead := toDigits_head_ne_zero hd
  have hlength : (digitText d).length = (Nat.toDigits 10 d).length := by
    rw [← String.length_toList, hds]
  set e := k + ((Nat.toDigits 10 d).length : ℤ) - 1 with he
  -- the exponent's digits, padded with zeros to the width
  set mag := List.replicate (w - (toString e.natAbs).length) '0' ++ Nat.toDigits 10 e.natAbs
    with hmag
  have hmagText : (String.ofList (List.replicate (w - (toString e.natAbs).length) '0') ++
      toString e.natAbs).toList = mag := by
    simp [hmag, Nat.toString_eq_repr, Nat.toList_repr]
  have hsign : (if e < 0 then "-" else "+").toList = [if decide (e < 0) then '-' else '+'] := by
    by_cases hneg : e < 0 <;> simp [hneg]
  have hexp : ∀ x ∈ some (decide (e < 0), mag), x.2 ≠ [] ∧ ∀ c ∈ x.2, c.isDigit = true := by
    intro x hx
    simp only [Option.mem_def, Option.some.injEq] at hx
    subst hx
    refine ⟨by simp [hmag, List.ne_nil_of_length_pos Nat.length_toDigits_pos], fun c hc => ?_⟩
    rcases List.mem_append.mp hc with hc | hc
    · rw [List.eq_of_mem_replicate hc]
      rfl
    · exact isDigit_of_mem_toDigits hc
  unfold withExponent
  dsimp only
  rw [hlength, ← he]
  by_cases hlen : (Nat.toDigits 10 d).length > 1
  · -- one digit, a point, the others
    rw [if_pos hlen]
    refine ⟨(Nat.toDigits 10 d).take 1, some ((Nat.toDigits 10 d).drop 1), (decide (e < 0), mag),
      ?_, by simp [hne], fun c hc => hdigit c (List.mem_of_mem_take hc), fun h0 => ?_,
      fun ds hds' => ?_, hexp⟩
    · simp only [String.toList_append, hsign, hmagText]
      simp [literalChars, hds]
    · rw [head?_take_of_pos (by omega)] at h0
      exact absurd h0 hhead
    · simp only [Option.mem_def, Option.some.injEq] at hds'
      subst hds'
      refine ⟨?_, fun c hc => hdigit c (List.mem_of_mem_drop hc)⟩
      rw [← List.length_pos_iff, List.length_drop]
      omega
  · -- a single digit
    rw [if_neg hlen]
    refine ⟨Nat.toDigits 10 d, none, (decide (e < 0), mag), ?_, hne, hdigit,
      fun h0 => absurd h0 hhead, by simp, hexp⟩
    simp only [String.toList_append, hsign, hmagText]
    simp [literalChars, hds]

/-- Every JSON text written for a double is a number literal spelled as JSON allows. -/
theorem jsonText_spelled {x : Float} {t : String} (h : jsonText x = some t) :
    ∃ neg whole frac ex, t.toList = literalChars neg whole frac ex ∧ Spelled whole frac ex := by
  have hzero : Spelled ['0'] none none :=
    ⟨by simp, by simp [isDigit_zero], fun _ => rfl, by simp, by simp⟩
  unfold jsonText at h
  rcases hx : Binary.ofFloat x with ⟨neg, _ | b⟩
  · -- a zero, signed or not
    rw [hx] at h
    dsimp only at h
    split at h
    · cases h
    split at h <;> cases h
    · exact ⟨true, ['0'], none, none, rfl, hzero⟩
    · exact ⟨false, ['0'], none, none, rfl, hzero⟩
  · -- the shortest digits, which are positive, with or without an exponent
    rw [hx] at h
    dsimp only at h
    have hpos := shortest_pos (Binary.ofFloat_bits hx).1
    generalize shortest b = p at h hpos
    obtain ⟨d, k⟩ := p
    dsimp only at h hpos
    split at h <;> cases h
    · obtain ⟨whole, frac, ex, hchars, hs⟩ := withExponent_spelled hpos k 1
      exact ⟨neg, whole, frac, some ex, by rw [signed_eq_ofList neg hchars, String.toList_ofList], hs⟩
    · obtain ⟨whole, frac, hchars, hs⟩ := positional_spelled hpos k
      exact ⟨neg, whole, frac, none, by rw [signed_eq_ofList neg hchars, String.toList_ofList], hs⟩

/-- The number scanner takes all of a number's written text. -/
theorem number_jsonText {x : Float} {t : String} (ht : jsonText x = some t)
    (h : Q.data.toList = pre ++ (ascii t).data.toList ++ post) (hpost : Closes post = true) :
    number Q pre.length = .ok (pre.length + (ascii t).size) := by
  obtain ⟨neg, whole, frac, ex, hchars, hs⟩ := jsonText_spelled ht
  have hdata : (ascii t).data.toList = (literalChars neg whole frac ex).map asciiByte := by
    rw [ascii, toUTF8_data_ascii (by rw [hchars]; exact hs.ascii neg), hchars]
  rw [hdata] at h
  rw [number_spelled neg hs h hpost, Utf8.size_eq_length, hdata, List.length_map]

/-- A number's written text starts with a minus sign or a digit. -/
theorem jsonText_lead {x : Float} {t : String} (ht : jsonText x = some t) :
    ∃ b rest, (ascii t).data.toList = b :: rest ∧ (b = 0x2D ∨ isDigitByte b = true) := by
  obtain ⟨neg, whole, frac, ex, hchars, hs⟩ := jsonText_spelled ht
  have hdata : (ascii t).data.toList = (literalChars neg whole frac ex).map asciiByte := by
    rw [ascii, toUTF8_data_ascii (by rw [hchars]; exact hs.ascii neg), hchars]
  obtain ⟨d, ds, rfl⟩ := List.exists_cons_of_ne_nil hs.whole_ne
  rw [hdata, literalChars_eq]
  cases neg
  · exact ⟨asciiByte d, _, rfl, .inr (isDigitByte_ascii (hs.whole_digits d (by simp)))⟩
  · exact ⟨0x2D, _, rfl, .inl rfl⟩

end TurnRelay.Json
