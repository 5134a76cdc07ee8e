import Mathlib
import TurnRelay.Proofs.Json.Slice

/-!
# Lexemes read from a slice

A raw field keeps the bytes of one value, cut out of the document, and a later reader parses
that slice on its own. This module shows that the reader's scanners read the same from a slice
`bs.extract a e` as from the document, at positions moved back by `a`: white space, digits,
literals, strings and numbers, including a number that runs to the slice's very end, where the
document may go on with a byte that stops it.

A number is read in stages (`digitsPart`, `fractionPart`, `exponentPart`), each handing the rest
of the number to the next; `number_eq` shows `number` is that chain.
-/

namespace TurnRelay.Json

variable {bs : ByteArray} {a e : ℕ}


theorem size_extract_of_le (he : e ≤ bs.size) : (bs.extract a e).size = e - a := by
  simp [ByteArray.size_extract, Nat.min_eq_left he]

/-- A byte of a slice is the byte of the document it was cut from. -/
theorem byteAt_extract (he : e ≤ bs.size) {p : ℕ} (ha : a ≤ p) (hp : p < e) :
    Utf8.byteAt (bs.extract a e) (p - a) = Utf8.byteAt bs p := by
  have := (window_extract bs a e).byteAt (by omega) (show p - a < e - a by omega)
  rwa [Nat.zero_add, Nat.add_sub_cancel' ha] at this

theorem le_skipSpace (bs : ByteArray) (i : ℕ) : i ≤ skipSpace bs i := by
  fun_induction skipSpace bs i <;> omega

theorem le_skipDigits (bs : ByteArray) (i : ℕ) : i ≤ skipDigits bs i := by
  fun_induction skipDigits bs i <;> omega

/-- White space skipped in a slice ends where it ends in the document, when it ends inside. -/
theorem skipSpace_extract (he : e ≤ bs.size) {i : ℕ} (ha : a ≤ i) (hk : skipSpace bs i < e) :
    skipSpace (bs.extract a e) (i - a) = skipSpace bs i - a := by
  fun_induction skipSpace bs i with
  | case1 i hi hsp ih =>
    have hle := le_skipSpace bs (i + 1)
    rw [skipSpace, if_pos (by rw [size_extract_of_le he]; omega),
      byteAt_extract he ha (by omega), if_pos hsp, show i - a + 1 = i + 1 - a by omega]
    exact ih (by omega) hk
  | case2 i hi hsp =>
    rw [skipSpace, if_pos (by rw [size_extract_of_le he]; omega),
      byteAt_extract he ha (by omega), if_neg hsp]
  | case3 i hi => omega

/-- Digits skipped in a slice end where they end in the document, also at the slice's end. -/
theorem skipDigits_extract (he : e ≤ bs.size) {i : ℕ} (ha : a ≤ i) (hk : skipDigits bs i ≤ e) :
    skipDigits (bs.extract a e) (i - a) = skipDigits bs i - a := by
  fun_induction skipDigits bs i with
  | case1 i hi hd ih =>
    have hle := le_skipDigits bs (i + 1)
    rw [skipDigits, if_pos (by rw [size_extract_of_le he]; omega),
      byteAt_extract he ha (by omega), if_pos hd, show i - a + 1 = i + 1 - a by omega]
    exact ih (by omega) hk
  | case2 i hi hd =>
    rcases Nat.lt_or_ge i e with hie | hie
    · rw [skipDigits, if_pos (by rw [size_extract_of_le he]; omega),
        byteAt_extract he ha hie, if_neg hd]
    · -- the digits run to the slice's end
      rw [skipDigits, if_neg (by rw [size_extract_of_le he]; omega)]
  | case3 i hi => rw [skipDigits, if_neg (by rw [size_extract_of_le he]; omega)]

/-! ## Numbers, stage by stage -/

/-- The rest of a number from where its exponent may start: an `e` or `E`, a sign and digits,
or nothing. -/
def exponentPart (bs : ByteArray) (j : ℕ) : Except SyntaxError ℕ :=
  if j < bs.size && (Utf8.byteAt bs j == 0x65 || Utf8.byteAt bs j == 0x45) then
    let k := j + 1
    let k := if k < bs.size && (Utf8.byteAt bs k == 0x2B || Utf8.byteAt bs k == 0x2D) then k + 1
      else k
    if k ≥ bs.size then .error .unexpectedEnd
    else if isDigitByte (Utf8.byteAt bs k) then .ok (skipDigits bs (k + 1))
    else .error (.invalidCharacter (shownAt bs k) .numberBody)
  else .ok j

/-- The rest of a number from where its fraction may start: a point and digits, or nothing,
then the exponent. -/
def fractionPart (bs : ByteArray) (j : ℕ) : Except SyntaxError ℕ :=
  if j < bs.size && Utf8.byteAt bs j == 0x2E then
    if j + 1 ≥ bs.size then .error .unexpectedEnd
    else if isDigitByte (Utf8.byteAt bs (j + 1)) then exponentPart bs (skipDigits bs (j + 2))
    else .error (.invalidCharacter (shownAt bs (j + 1)) .numberBody)
  else exponentPart bs j

/-- The rest of a number from its first digit: a lone zero or a run of digits, then the
fraction. -/
def digitsPart (bs : ByteArray) (j : ℕ) : Except SyntaxError ℕ :=
  if Utf8.byteAt bs j == 0x30 then fractionPart bs (j + 1)
  else if isDigitByte (Utf8.byteAt bs j) then fractionPart bs (skipDigits bs (j + 1))
  else .error (.invalidCharacter (shownAt bs j) .numberBody)

/-- A number is its sign and then the rest, read stage by stage. -/
theorem number_eq (bs : ByteArray) (i : ℕ) :
    number bs i =
      let j := if Utf8.byteAt bs i == 0x2D then i + 1 else i
      if j ≥ bs.size then .error .unexpectedEnd else digitsPart bs j := rfl

/-- Inside a slice, a test of "a byte is there and passes `f`" reads as in the document. -/
theorem guard_extract (he : e ≤ bs.size) {p : ℕ} (ha : a ≤ p) (hp : p < e) (f : UInt8 → Bool) :
    (decide (p - a < (bs.extract a e).size) && f (Utf8.byteAt (bs.extract a e) (p - a))) =
      (decide (p < bs.size) && f (Utf8.byteAt bs p)) := by
  rw [byteAt_extract he ha hp, size_extract_of_le he]
  simp only [show p - a < e - a by omega, show p < bs.size by omega, decide_true]

/-- A test that fails in the document up to the slice's end fails in the slice: at the end no
byte is there. -/
theorem not_guard_extract (he : e ≤ bs.size) {p : ℕ} (ha : a ≤ p) (hp : p ≤ e)
    (f : UInt8 → Bool) (h : ¬(decide (p < bs.size) && f (Utf8.byteAt bs p)) = true) :
    ¬(decide (p - a < (bs.extract a e).size) && f (Utf8.byteAt (bs.extract a e) (p - a))) = true := by
  rcases Nat.lt_or_ge p e with hlt | hge
  · rwa [guard_extract he ha hlt f]
  · rw [size_extract_of_le he]
    simp [show ¬ p - a < e - a by omega]

theorem exponentPart_le {j m : ℕ} (h : exponentPart bs j = .ok m) : j ≤ m := by
  unfold exponentPart at h
  dsimp only at h
  split_ifs at h <;> cases h
  · exact (le_skipDigits bs _).trans' (by omega)
  · exact (le_skipDigits bs _).trans' (by omega)
  · exact le_refl j

theorem exponentPart_extract (he : e ≤ bs.size) {j m : ℕ} (ha : a ≤ j)
    (h : exponentPart bs j = .ok m) (hm : m ≤ e) :
    exponentPart (bs.extract a e) (j - a) = .ok (m - a) := by
  have hsz := size_extract_of_le (a := a) he
  unfold exponentPart at h ⊢
  by_cases h1 : (decide (j < bs.size) && (Utf8.byteAt bs j == 0x65 || Utf8.byteAt bs j == 0x45)) = true
  · rw [if_pos h1] at h
    dsimp only at h ⊢
    have hj : j < bs.size := by simp at h1; exact h1.1
    -- the mark, the sign if any and the first digit lie before the number's end
    by_cases h2 : (decide (j + 1 < bs.size) &&
        (Utf8.byteAt bs (j + 1) == 0x2B || Utf8.byteAt bs (j + 1) == 0x2D)) = true
    · rw [if_pos h2] at h
      split_ifs at h with h5 h6
      cases h
      have hle := le_skipDigits bs (j + 1 + 1 + 1)
      rw [if_pos ((guard_extract he ha (by omega) (fun b => b == 0x65 || b == 0x45)).trans h1),
        show j - a + 1 = j + 1 - a by omega,
        if_pos ((guard_extract he (by omega) (by omega)
          (fun b => b == 0x2B || b == 0x2D)).trans h2),
        if_neg (by omega), show j + 1 - a + 1 = j + 1 + 1 - a by omega,
        byteAt_extract he (by omega) (by omega), if_pos h6,
        show j + 1 + 1 - a + 1 = j + 1 + 1 + 1 - a by omega, skipDigits_extract he (by omega) hm]
    · rw [if_neg h2] at h
      split_ifs at h with h5 h6
      cases h
      have hle := le_skipDigits bs (j + 1 + 1)
      rw [if_pos ((guard_extract he ha (by omega) (fun b => b == 0x65 || b == 0x45)).trans h1),
        show j - a + 1 = j + 1 - a by omega,
        if_neg (not_guard_extract he (by omega) (by omega) (fun b => b == 0x2B || b == 0x2D) h2),
        if_neg (by omega), byteAt_extract he (by omega) (by omega), if_pos h6,
        show j + 1 - a + 1 = j + 1 + 1 - a by omega, skipDigits_extract he (by omega) hm]
  · rw [if_neg h1] at h
    cases h
    rw [if_neg (not_guard_extract he ha hm (fun b => b == 0x65 || b == 0x45) h1)]

theorem fractionPart_extract (he : e ≤ bs.size) {j m : ℕ} (ha : a ≤ j)
    (h : fractionPart bs j = .ok m) (hm : m ≤ e) :
    fractionPart (bs.extract a e) (j - a) = .ok (m - a) := by
  have hsz := size_extract_of_le (a := a) he
  unfold fractionPart at h ⊢
  by_cases h1 : (decide (j < bs.size) && Utf8.byteAt bs j == 0x2E) = true
  · rw [if_pos h1] at h
    split_ifs at h with h5 h6
    -- the point and the first digit after it lie before the number's end
    have hle := le_skipDigits bs (j + 2)
    have hend := exponentPart_le h
    rw [if_pos ((guard_extract he ha (by omega) (fun b => b == 0x2E)).trans h1), if_neg (by omega),
      show j - a + 1 = j + 1 - a by omega, byteAt_extract he (by omega) (by omega), if_pos h6,
      show j - a + 2 = j + 2 - a by omega, skipDigits_extract he (by omega) (by omega)]
    exact exponentPart_extract he (by omega) h hm
  · rw [if_neg h1] at h
    have hend := exponentPart_le h
    rw [if_neg (not_guard_extract he ha (by omega) (fun b => b == 0x2E) h1)]
    exact exponentPart_extract he ha h hm

theorem fractionPart_le {j m : ℕ} (h : fractionPart bs j = .ok m) : j ≤ m := by
  unfold fractionPart at h
  split_ifs at h
  · exact ((le_skipDigits bs _).trans (exponentPart_le h)).trans' (by omega)
  · exact exponentPart_le h

theorem digitsPart_lt {j m : ℕ} (h : digitsPart bs j = .ok m) : j < m := by
  unfold digitsPart at h
  split_ifs at h
  · exact fractionPart_le h
  · exact ((le_skipDigits bs _).trans (fractionPart_le h)).trans' (by omega)

theorem digitsPart_extract (he : e ≤ bs.size) {j m : ℕ} (ha : a ≤ j)
    (h : digitsPart bs j = .ok m) (hm : m ≤ e) :
    digitsPart (bs.extract a e) (j - a) = .ok (m - a) := by
  have hj : j < e := (digitsPart_lt h).trans_le hm
  unfold digitsPart at h ⊢
  rw [byteAt_extract he ha hj]
  split_ifs at h with h1 h2
  · rw [if_pos h1, show j - a + 1 = j + 1 - a by omega]
    exact fractionPart_extract he (by omega) h hm
  · have hle := le_skipDigits bs (j + 1)
    have hend := fractionPart_le h
    rw [if_neg h1, if_pos h2, show j - a + 1 = j + 1 - a by omega,
      skipDigits_extract he (by omega) (by omega)]
    exact fractionPart_extract he (by omega) h hm

/-- A number reads the same from a slice that holds it, also when it runs to the slice's end. -/
theorem number_extract (he : e ≤ bs.size) {i j : ℕ} (ha : a ≤ i)
    (h : number bs i = .ok j) (hj : j ≤ e) :
    number (bs.extract a e) (i - a) = .ok (j - a) := by
  rw [number_eq] at h ⊢
  dsimp only at h ⊢
  split_ifs at h with hsign hend
  · -- a minus sign, then the digits
    have hlt := digitsPart_lt h
    rw [byteAt_extract he ha (by omega), if_pos hsign, if_neg (by rw [size_extract_of_le he]; omega),
      show i - a + 1 = i + 1 - a by omega]
    exact digitsPart_extract he (by omega) h hj
  · have hlt := digitsPart_lt h
    rw [byteAt_extract he ha (by omega), if_neg hsign, if_neg (by rw [size_extract_of_le he]; omega)]
    exact digitsPart_extract he ha h hj

/-! ## Where a value ends -/

theorem skipDigits_le_size {i : ℕ} (hi : i ≤ bs.size) : skipDigits bs i ≤ bs.size := by
  fun_induction skipDigits bs i <;> omega

theorem exponentPart_le_size {j m : ℕ} (h : exponentPart bs j = .ok m) (hj : j ≤ bs.size) :
    m ≤ bs.size := by
  unfold exponentPart at h
  dsimp only at h
  split_ifs at h <;> cases h
  · exact skipDigits_le_size (by omega)
  · exact skipDigits_le_size (by omega)
  · exact hj

theorem fractionPart_le_size {j m : ℕ} (h : fractionPart bs j = .ok m) (hj : j ≤ bs.size) :
    m ≤ bs.size := by
  unfold fractionPart at h
  split_ifs at h
  · exact exponentPart_le_size h (skipDigits_le_size (by omega))
  · exact exponentPart_le_size h hj

theorem number_bounds {i j : ℕ} (h : number bs i = .ok j) : i < j ∧ j ≤ bs.size := by
  rw [number_eq] at h
  dsimp only at h
  split_ifs at h with hsign hend
  all_goals
    have hlt := digitsPart_lt h
    unfold digitsPart at h
    split_ifs at h
    · exact ⟨by omega, fractionPart_le_size h (by omega)⟩
    · exact ⟨by omega, fractionPart_le_size h (skipDigits_le_size (by omega))⟩

/-! ## Literals and strings -/

theorem literal_loop_extract (he : e ≤ bs.size) {w : ByteArray} {word : String} {i k fuel j : ℕ}
    (ha : a ≤ i) (hk : k + fuel = w.size) (h : literal.loop bs i word w k fuel = .ok j)
    (hj : j ≤ e) :
    literal.loop (bs.extract a e) (i - a) word w k fuel = .ok (j - a) := by
  induction fuel generalizing k with
  | zero =>
    rw [literal.loop] at h ⊢
    cases h
    rw [show i - a + k = i + k - a by omega]
  | succ fuel ih =>
    have hend := (literal_loop_ok hk h).1
    rw [literal.loop] at h ⊢
    split_ifs at h with h1 h2 h3
    · cases h
      rw [if_pos h1, show i - a + k = i + k - a by omega]
    · -- the word's next byte lies before its end, so inside the slice
      rw [if_neg h1, if_neg (by rw [size_extract_of_le he]; omega),
        show i - a + k = i + k - a by omega, byteAt_extract he (by omega) (by omega), if_pos h3]
      exact ih (by omega) h

theorem literal_bounds {i j : ℕ} {word : String} (h : literal bs i word = .ok j)
    (hw : 0 < word.toUTF8.size) : i < j ∧ j ≤ bs.size := by
  obtain ⟨rfl, hbytes⟩ := literal_loop_ok (Nat.zero_add _) h
  have := (hbytes (word.toUTF8.size - 1) (Nat.zero_le _) (by omega)).1
  omega

/-- A literal reads the same from a slice that holds it. -/
theorem literal_extract (he : e ≤ bs.size) {i j : ℕ} {word : String} (ha : a ≤ i)
    (h : literal bs i word = .ok j) (hj : j ≤ e) :
    literal (bs.extract a e) (i - a) word = .ok (j - a) :=
  literal_loop_extract he ha (Nat.zero_add _) h hj

theorem Window.take {bs bs' : ByteArray} {a a' n m : ℕ} (hw : Window bs bs' a a' n) (hm : m ≤ n) :
    Window bs bs' a a' m := by
  obtain ⟨r, hr⟩ := hw
  refine ⟨((bs.data.toList.drop a).take n).drop m ++ r, ?_⟩
  have ht : (bs.data.toList.drop a).take m = ((bs.data.toList.drop a).take n).take m := by
    rw [List.take_take, Nat.min_eq_left hm]
  rw [hr, ht, ← List.append_assoc, List.take_append_drop]

/-- A string reads the same from a slice that holds it. -/
theorem stringBody_extract (he : e ≤ bs.size) {i j : ℕ} {acc s : String} (ha : a ≤ i)
    (h : stringBody bs i acc = .ok (s, j)) (hj : j ≤ e) :
    stringBody (bs.extract a e) (i - a) acc = .ok (s, j - a) := by
  have hij := (stringBody_bounds h).1
  have hw : Window bs (bs.extract a e) i (i - a) (j - i) := by
    have := (window_extract bs a e).drop (m := i - a) (by omega) (by omega)
    rw [Nat.add_sub_cancel' ha, Nat.zero_add] at this
    exact this.take (by omega)
  rw [stringBody_window h hw]
  congr 2
  omega

end TurnRelay.Json
