import Mathlib
import TurnRelay.Proofs.Json.Tree

/-!
# Reading a string or `null` again from its own bytes

A field that keeps raw JSON keeps the bytes of one value, and a later reader parses those bytes
on their own. This module shows that a string read out of a document reads back as the same
string from its own span, and `null` as `null`; any other value does not read back as either.
-/

namespace TurnRelay.Json

variable {bs bs' : ByteArray}

/-- The offset after a `\u` escape: six bytes on, or twelve for a surrogate pair. -/
theorem escapedUnit_snd (bs : ByteArray) (i unit : ℕ) :
    (escapedUnit bs i unit).2 = i + 6 ∨ (escapedUnit bs i unit).2 = i + 12 := by
  unfold escapedUnit
  dsimp only
  repeat' split
  all_goals simp

theorem lt_escapedUnit (bs : ByteArray) (i unit : ℕ) : i < (escapedUnit bs i unit).2 := by
  rcases escapedUnit_snd bs i unit with h | h <;> omega

/-- A string body that closes ends after its closing quote, inside the source. -/
theorem stringBody_bounds {a j : ℕ} {acc s : String} (h : stringBody bs a acc = .ok (s, j)) :
    a < j ∧ j ≤ bs.size ∧ Utf8.byteAt bs (j - 1) = 0x22 := by
  revert h
  fun_induction stringBody bs a acc generalizing s j
  case case1 hi _ hb =>
    rintro ⟨⟩
    exact ⟨by omega, by omega, by simpa using hb⟩
  case case3 ih =>
    intro h
    have := ih h
    exact ⟨by omega, this.2⟩
  case case7 hr _ ih =>
    intro h
    have := ih h
    exact ⟨lt_trans hr this.1, this.2⟩
  case case8 hr => exact (hr (lt_escapedUnit _ _ _)).elim
  case case11 ih =>
    intro h
    have := ih h
    exact ⟨lt_of_le_of_lt (Nat.le_add_right _ _) this.1, this.2⟩
  all_goals rintro ⟨⟩


/-! ## Sources that agree on a window -/

/-- `bs'` from `a'` on starts with the `n` bytes of `bs` from `a` on. -/
def Window (bs bs' : ByteArray) (a a' n : ℕ) : Prop :=
  ∃ r, bs'.data.toList.drop a' = (bs.data.toList.drop a).take n ++ r

namespace Window

variable {a a' n : ℕ}

theorem size_le (hw : Window bs bs' a a' n) (hpos : 0 < n) (hn : a + n ≤ bs.size) :
    a' + n ≤ bs'.size := by
  obtain ⟨r, hr⟩ := hw
  have := congrArg List.length hr
  simp only [List.length_drop, List.length_append, List.length_take, Array.length_toList,
    ByteArray.size_data] at this
  omega

theorem byteAt (hw : Window bs bs' a a' n) (hn : a + n ≤ bs.size) {k : ℕ} (hk : k < n) :
    Utf8.byteAt bs' (a' + k) = Utf8.byteAt bs (a + k) := by
  obtain ⟨r, hr⟩ := hw
  have hlen : ((bs.data.toList.drop a).take n).length = n := by
    simp only [List.length_take, List.length_drop, Array.length_toList, ByteArray.size_data]
    omega
  have h' : (bs'.data.toList.drop a').getD k 0 = (bs.data.toList.drop a).getD k 0 := by
    rw [hr, List.getD_append _ _ _ _ (by omega)]
    simp [List.getD_eq_getElem?_getD, hk]
  simpa [Utf8.byteAt_eq] using h'

/-- Past `m` bytes of the window, the rest is a window. -/
theorem drop (hw : Window bs bs' a a' n) {m : ℕ} (hm : m ≤ n) (hn : a + n ≤ bs.size) :
    Window bs bs' (a + m) (a' + m) (n - m) := by
  obtain ⟨r, hr⟩ := hw
  refine ⟨r, ?_⟩
  have hlen : m ≤ ((bs.data.toList.drop a).take n).length := by
    simp only [List.length_take, List.length_drop, Array.length_toList, ByteArray.size_data]
    omega
  rw [← List.drop_drop, hr, List.drop_append_of_le_length hlen, List.drop_take, List.drop_drop]


/-- Past the first `n - 1` bytes, the window's last byte comes next. -/
theorem take_last {a n : ℕ} (hn : a + n ≤ bs.size) (hpos : 0 < n) :
    (bs.data.toList.drop a).take n =
      (bs.data.toList.drop a).take (n - 1) ++ [Utf8.byteAt bs (a + n - 1)] := by
  have hlt : n - 1 < (bs.data.toList.drop a).length := by
    simp only [List.length_drop, Array.length_toList, ByteArray.size_data]
    omega
  have hbyte : Utf8.byteAt bs (a + n - 1) = (bs.data.toList.drop a)[n - 1] := by
    rw [Utf8.byteAt_eq, List.getElem_drop,
      List.getD_eq_getElem _ _ (by simp only [List.length_drop] at hlt; omega)]
    congr 1
    omega
  rw [hbyte]
  conv_lhs => rw [show n = n - 1 + 1 by omega]
  rw [List.take_add_one, List.getElem?_eq_getElem hlt]
  rfl

/-- `decodeAt` reads the same in two sources that agree up to a byte that is not a continuation
byte. -/
theorem decodeAt (hw : Window bs bs' a a' n) (hn : a + n ≤ bs.size) (h2 : 2 ≤ n)
    (hlast : Utf8.isTail (Utf8.byteAt bs (a + n - 1)) = false) :
    Utf8.decodeAt bs' a' = Utf8.decodeAt bs a := by
  obtain ⟨r, hr⟩ := hw
  have hsplit := take_last hn (by omega)
  have hx : (bs.data.toList.drop a).take (n - 1) ≠ [] := by
    rw [← List.length_pos_iff]
    simp only [List.length_take, List.length_drop, Array.length_toList, ByteArray.size_data]
    omega
  have hdrop : bs.data.toList.drop a = (bs.data.toList.drop a).take (n - 1) ++
      Utf8.byteAt bs (a + n - 1) :: (bs.data.toList.drop a).drop n := by
    conv_lhs => rw [← List.take_append_drop n (bs.data.toList.drop a), hsplit]
    simp
  rw [hsplit, List.append_assoc, List.singleton_append] at hr
  have hi : a < bs.size := by omega
  have hi' : a' < bs'.size := by
    have := congrArg List.length hr
    simp only [List.length_drop, List.length_append, List.length_cons, Array.length_toList,
      ByteArray.size_data] at this
    omega
  refine Utf8.decodeAt_congr hi' hi fun c => ⟨?_, ?_⟩
  · rintro ⟨post, hp⟩
    rw [hr] at hp
    obtain ⟨post', hpost⟩ := Utf8.encode_prefix_of_not_tail hx hlast hp.symm.symm
    exact ⟨post' ++ _, by rw [hdrop, hpost, List.append_assoc]⟩
  · rintro ⟨post, hp⟩
    rw [hdrop] at hp
    obtain ⟨post', hpost⟩ := Utf8.encode_prefix_of_not_tail hx hlast hp
    exact ⟨post' ++ _, by rw [hr, hpost, List.append_assoc]⟩

end Window

/-! ## The reads of a `\u` escape -/

/-- Four hexadecimal digits read the same wherever the same four bytes stand. -/
theorem hex4_congr {p p' : ℕ} (h : ∀ k < 4, Utf8.byteAt bs' (p' + k) = Utf8.byteAt bs (p + k)) :
    hex4 bs' p' = hex4 bs p := by
  have h0 := h 0 (by omega)
  simp only [Nat.add_zero] at h0
  unfold hex4
  rw [h0, h 1 (by omega), h 2 (by omega), h 3 (by omega)]

theorem hexValue_quote : hexValue 0x22 = none := by decide

/-- A quote among four bytes is not four hexadecimal digits. -/
theorem hex4_of_quote {p k : ℕ} (hk : k < 4) (hq : Utf8.byteAt bs (p + k) = 0x22) :
    hex4 bs p = none := by
  unfold hex4
  interval_cases k
  · simp only [Nat.add_zero] at hq
    simp [hq, hexValue_quote]
  all_goals simp [hq, hexValue_quote]


/-- A surrogate pair is read only when none of the six bytes after the first escape is a
quote. -/
theorem escapedUnit_pair {p unit : ℕ} (h : (escapedUnit bs p unit).2 = p + 12) {k : ℕ}
    (hk6 : 6 ≤ k) (hk : k < 12) : Utf8.byteAt bs (p + k) ≠ 0x22 := by
  intro hq
  unfold escapedUnit at h
  dsimp only at h
  repeat' split at h
  all_goals try omega
  rename_i hcheck _ _ hhex _
  simp only [Bool.and_eq_true, decide_eq_true_eq, beq_iff_eq] at hcheck
  -- the quote would be the backslash, the `u`, or one of the four digits
  rcases (by omega : k = 6 ∨ k = 7 ∨ 8 ≤ k) with rfl | rfl | h8
  · rw [hcheck.1.2] at hq
    exact absurd hq (by decide)
  · rw [hcheck.2] at hq
    exact absurd hq (by decide)
  · have := hex4_of_quote (p := p + 6 + 2) (k := k - 8) (by omega)
      (by rw [show p + 6 + 2 + (k - 8) = p + k by omega]; exact hq)
    rw [this] at hhex
    cases hhex


/-- An escape read on its own, without a pair, reads the same character whatever follows it. -/
theorem escapedUnit_fst_of_snd {p unit : ℕ} (h : (escapedUnit bs p unit).2 = p + 6) :
    (escapedUnit bs p unit).1 =
      if (0xD800 ≤ unit && unit ≤ 0xDBFF) || (0xDC00 ≤ unit && unit ≤ 0xDFFF) then '�'
      else Char.ofNat unit := by
  unfold escapedUnit at h ⊢
  dsimp only at h ⊢
  split_ifs at h ⊢
  all_goals try split at h
  all_goals try split_ifs at h ⊢
  all_goals simp_all
  all_goals omega


/-- A `\u` escape reads the same wherever the same twelve bytes stand, with as much room after
them. -/
theorem escapedUnit_congr {p p' unit : ℕ}
    (hb : ∀ k < 12, Utf8.byteAt bs' (p' + k) = Utf8.byteAt bs (p + k))
    (hsize : p' + 12 ≤ bs'.size ↔ p + 12 ≤ bs.size) :
    escapedUnit bs' p' unit = ((escapedUnit bs p unit).1, (escapedUnit bs p unit).2 - p + p') := by
  have h6 : Utf8.byteAt bs' (p' + 6) = Utf8.byteAt bs (p + 6) := hb 6 (by omega)
  have h7 : Utf8.byteAt bs' (p' + 6 + 1) = Utf8.byteAt bs (p + 6 + 1) := hb 7 (by omega)
  have hhex : hex4 bs' (p' + 6 + 2) = hex4 bs (p + 6 + 2) := hex4_congr fun k hk => by
    rw [show p' + 6 + 2 + k = p' + (8 + k) by omega, show p + 6 + 2 + k = p + (8 + k) by omega]
    exact hb _ (by omega)
  have hroom : decide (p' + 6 + 6 ≤ bs'.size) = decide (p + 6 + 6 ≤ bs.size) :=
    decide_eq_decide.2 hsize
  unfold escapedUnit
  dsimp only
  -- the two reads now make the same checks; only where they end differs
  rw [h6, h7, hhex, hroom]
  split_ifs
  · -- a high surrogate followed by `\u`: the low half is read from the same bytes
    split
    · split_ifs <;> simp only [Prod.mk.injEq, true_and] <;> omega
    · simp only [Prod.mk.injEq, true_and]
      omega
  all_goals simp only [Prod.mk.injEq, true_and]; omega


/-- A `\u` escape inside a string reads the same in a source that agrees with it up to the
string's closing quote: a pair that runs into the quote is no pair in either. -/
theorem Window.escapedUnit_eq {a a' n unit : ℕ} (hw : Window bs bs' a a' n) (hn : a + n ≤ bs.size)
    (hlast : Utf8.byteAt bs (a + n - 1) = 0x22) (hlt : (escapedUnit bs a unit).2 < a + n) :
    escapedUnit bs' a' unit = ((escapedUnit bs a unit).1, (escapedUnit bs a unit).2 - a + a') := by
  by_cases h12 : 12 ≤ n
  · -- all twelve bytes an escape may read lie in the window
    have hroom := hw.size_le (by omega) hn
    exact escapedUnit_congr (fun k hk => hw.byteAt hn (by omega)) ⟨fun _ => by omega, fun _ => by omega⟩
  · have h6 : (escapedUnit bs a unit).2 = a + 6 := by
      rcases escapedUnit_snd bs a unit with h | h
      · exact h
      · omega
    have hq : Utf8.byteAt bs' (a' + (n - 1)) = 0x22 := by
      rw [hw.byteAt hn (by omega), show a + (n - 1) = a + n - 1 by omega, hlast]
    have h6' : (escapedUnit bs' a' unit).2 = a' + 6 := by
      rcases escapedUnit_snd bs' a' unit with h | h
      · exact h
      · exact absurd hq (escapedUnit_pair h (by omega) (by omega))
    refine Prod.ext ?_ ?_
    · rw [escapedUnit_fst_of_snd h6', escapedUnit_fst_of_snd h6]
    · rw [h6', h6]
      omega


/-! ## A string read again from a source that agrees with it -/

/-- A string body reads the same from a source that agrees with it up to its closing quote. -/
theorem stringBody_window {a a' j : ℕ} {acc s : String} (h : stringBody bs a acc = .ok (s, j))
    (hw : Window bs bs' a a' (j - a)) : stringBody bs' a' acc = .ok (s, a' + (j - a)) := by
  revert hw h
  fun_induction stringBody bs a acc generalizing s j a'
  case case1 i acc hi b hb =>
    rintro ⟨⟩ hw
    have hq : Utf8.byteAt bs i = 0x22 := by simpa [b] using hb
    have e0 : Utf8.byteAt bs' a' = 0x22 := by
      rw [← hq]
      simpa using hw.byteAt (k := 0) (by omega) (by omega)
    have hroom : a' + 1 ≤ bs'.size := by simpa using hw.size_le (by omega) (by omega)
    rw [stringBody, dif_pos (by omega)]
    simp [e0]
  case case3 i acc hi b hb1 hb2 hend c simple ch hsimple ih =>
    intro h hw
    obtain ⟨hlt, hle, -⟩ := stringBody_bounds h
    have e0 : Utf8.byteAt bs' a' = Utf8.byteAt bs i := by
      simpa using hw.byteAt (k := 0) (by omega) (by omega)
    have e1 : Utf8.byteAt bs' (a' + 1) = Utf8.byteAt bs (i + 1) :=
      hw.byteAt (k := 1) (by omega) (by omega)
    have hroom := hw.size_le (by omega) (by omega)
    have hrest := ih h (hw.drop (m := 2) (by omega) (by omega))
    rw [stringBody, dif_pos (by omega)]
    simp only [e0, e1]
    simp only [b, c, simple, dite_eq_ite] at hb1 hb2 hsimple
    rw [if_neg hb1, if_pos hb2, if_neg (by omega), hsimple]
    simp only
    rw [hrest]
    congr 2
    omega
  case case7 i acc hi b hb1 hb2 hend c simple hnone hu hsize unit hhex hr _ ih =>
    intro h hw
    set e := (escapedUnit bs i unit).2 with he
    obtain ⟨hlt, hle, hq⟩ := stringBody_bounds h
    have h6 := escapedUnit_snd bs i unit
    have e0 : Utf8.byteAt bs' a' = Utf8.byteAt bs i := by
      simpa using hw.byteAt (k := 0) (by omega) (by omega)
    have e1 : Utf8.byteAt bs' (a' + 1) = Utf8.byteAt bs (i + 1) :=
      hw.byteAt (k := 1) (by omega) (by omega)
    have hroom := hw.size_le (by omega) (by omega)
    have hhex' : hex4 bs' (a' + 2) = hex4 bs (i + 2) := hex4_congr fun k hk => by
      rw [Nat.add_assoc, Nat.add_assoc]
      exact hw.byteAt (by omega) (by omega)
    -- the escape reads the same character, and the rest of the string follows it in both
    have hesc := hw.escapedUnit_eq (by omega)
      (by rw [show i + (j - i) - 1 = j - 1 by omega]; exact hq)
      (show (escapedUnit bs i unit).2 < i + (j - i) by omega)
    have hw' : Window bs bs' e (e - i + a') (j - e) := by
      have := hw.drop (m := e - i) (by omega) (by omega)
      rwa [show i + (e - i) = e by omega, show a' + (e - i) = e - i + a' by omega,
        show j - i - (e - i) = j - e by omega] at this
    have hrest := ih h hw'
    rw [stringBody, dif_pos (by omega)]
    simp only [e0, e1]
    simp only [b, c, simple, dite_eq_ite] at hb1 hb2 hnone hu
    rw [if_neg hb1, if_pos hb2, if_neg (by omega), hnone]
    simp only
    rw [if_pos hu, if_neg (by omega), hhex', hhex]
    simp only
    rw [hesc, dif_pos (by simp only; omega)]
    simp only
    rw [hrest]
    congr 2
    omega
  case case8 hr => exact (hr (lt_escapedUnit _ _ _)).elim
  case case11 i acc hi b hb1 hb2 hctl _ ih =>
    intro h hw
    obtain ⟨hlt, hle, hq⟩ := stringBody_bounds h
    have hpos := Utf8.decodeAt_width_pos bs i
    have e0 : Utf8.byteAt bs' a' = Utf8.byteAt bs i := by
      simpa using hw.byteAt (k := 0) (by omega) (by omega)
    have hroom := hw.size_le (by omega) (by omega)
    -- the string's closing quote ends what `decodeAt` may read
    have hdec : Utf8.decodeAt bs' a' = Utf8.decodeAt bs i :=
      hw.decodeAt (by omega) (by omega)
        (by rw [show i + (j - i) - 1 = j - 1 by omega, hq]; decide)
    have hw' := hw.drop (m := (Utf8.decodeAt bs i).2) (by omega) (by omega)
    rw [show j - i - (Utf8.decodeAt bs i).2 = j - (i + (Utf8.decodeAt bs i).2) by omega] at hw'
    have hrest := ih h hw'
    rw [stringBody, dif_pos (by omega)]
    simp only [e0]
    simp only [b] at hb1 hb2 hctl
    rw [if_neg hb1, if_neg hb2, if_neg hctl, hdec, hrest]
    congr 2
    omega
  all_goals rintro ⟨⟩


/-! ## Reading a value's own bytes -/

/-- The bytes of a slice start with the bytes of the source at the slice's start. -/
theorem window_extract (bs : ByteArray) (i j : ℕ) : Window bs (bs.extract i j) i 0 (j - i) :=
  ⟨[], by rw [List.drop_zero, Utf8.extract_toList, List.append_nil]⟩

theorem skipSpace_of_not_space {i : ℕ} (h : isSpace (Utf8.byteAt bs i) = false) :
    skipSpace bs i = i := by
  rw [skipSpace]
  split_ifs with hi hs
  · rw [h] at hs
    cases hs
  · rfl
  · rfl

/-- A document with no bytes is not JSON. -/
theorem parse_of_size_eq_zero (h : bs.size = 0) : ∃ e, parse bs = .error e := by
  have hskip : skipSpace bs 0 = 0 := by
    rw [skipSpace, if_neg (by omega)]
  rw [parse, hskip, value]
  simp [h]

/-- A string read out of a document reads back as the same string from its own bytes. -/
theorem parse_extract_string {i j : ℕ} {s : String} (hn : (Node.string ⟨i, j⟩ s).ReadFrom bs) :
    parse (bs.extract i j) = .ok (.string ⟨0, j - i⟩ s) := by
  cases hn with
  | string hq hbody =>
  obtain ⟨hlt, hle, -⟩ := stringBody_bounds hbody
  have hsize : (bs.extract i j).size = j - i := by simp; omega
  have hw := window_extract bs i j
  have h0 : Utf8.byteAt (bs.extract i j) 0 = 0x22 := by
    simpa [hq] using hw.byteAt (k := 0) (by omega) (by omega)
  have hbody' := stringBody_window hbody (by
    have := hw.drop (m := 1) (by omega) (by omega)
    rwa [show j - i - 1 = j - (i + 1) by omega] at this)
  rw [show 0 + 1 + (j - (i + 1)) = j - i by omega] at hbody'
  have hskip : skipSpace (bs.extract i j) 0 = 0 := skipSpace_of_not_space (by rw [h0]; rfl)
  have hend : skipSpace (bs.extract i j) (j - i) = j - i := by
    rw [skipSpace, if_neg (by omega)]
  refine parse_eq_ok.2 ⟨j - i, ?_, by rw [hend, hsize]⟩
  rw [hskip]
  exact value_succ_eq_ok.2 ⟨by omega, .string h0 hbody'⟩


/-- The kind of value the reader starts at a byte, if any. -/
def leadKind (b : UInt8) : Option String :=
  if b = 0x7B then some "object" else if b = 0x5B then some "array"
  else if b = 0x22 then some "string" else if b = 0x74 ∨ b = 0x66 then some "bool"
  else if b = 0x6E then some "null" else if b = 0x2D ∨ isDigitByte b = true then some "number"
  else none

/-- Digits and the minus sign start numbers. -/
theorem leadKind_of_number {b : UInt8} (h : b = 0x2D ∨ isDigitByte b = true) :
    leadKind b = some "number" := by
  rcases h with rfl | hd
  · decide
  · unfold leadKind
    rw [if_neg (by rintro rfl; exact absurd hd (by decide)),
      if_neg (by rintro rfl; exact absurd hd (by decide)),
      if_neg (by rintro rfl; exact absurd hd (by decide)),
      if_neg (by rintro (rfl | rfl) <;> exact absurd hd (by decide)),
      if_neg (by rintro rfl; exact absurd hd (by decide)), if_pos (.inr hd)]

theorem eq_of_leadKind_string {b : UInt8} (h : leadKind b = some "string") : b = 0x22 := by
  unfold leadKind at h
  split_ifs at h <;> simp_all

theorem eq_of_leadKind_array {b : UInt8} (h : leadKind b = some "array") : b = 0x5B := by
  unfold leadKind at h
  split_ifs at h <;> simp_all

/-- No value starts at white space. -/
theorem isSpace_of_leadKind {b : UInt8} {k : String} (h : leadKind b = some k) :
    isSpace b = false := by
  unfold leadKind at h
  split_ifs at h with h1 h2 h3 h4 h5 h6
  · subst h1; decide
  · subst h2; decide
  · subst h3; decide
  · rcases h4 with rfl | rfl <;> decide
  · subst h5; decide
  · rcases h6 with rfl | hd
    · decide
    · -- a digit is none of the four white-space bytes
      simp only [isDigitByte, Bool.and_eq_true, decide_eq_true_eq, UInt8.le_iff_toNat_le,
        UInt8.reduceToNat] at hd
      simp only [isSpace, Bool.or_eq_false_iff, beq_eq_false_iff_ne, ne_eq, ← UInt8.toNat_inj,
        UInt8.reduceToNat]
      omega

/-- A node of a tree read from `bs` starts at a byte that starts a value of its kind. -/
theorem Node.ReadFrom.leadKind {n : Node} (h : n.ReadFrom bs) :
    leadKind (Utf8.byteAt bs n.span.start) = some n.kindName := by
  cases h with
  | @null i hbytes =>
    obtain ⟨rest, hrest⟩ := hbytes
    have h0 : (bs.data.toList.drop i).getD 0 0 = 0x6E := by rw [hrest]; rfl
    have hb : Utf8.byteAt bs i = 0x6E := by simpa [Utf8.byteAt_eq] using h0
    simp [Node.span, Node.kindName, hb, Json.leadKind]
  | bool hb => rcases hb with hb | hb <;> simp [Node.span, Node.kindName, hb, Json.leadKind]
  | number hb => exact leadKind_of_number hb
  | string hb => simp [Node.span, Node.kindName, hb, Json.leadKind]
  | array hb => simp [Node.span, Node.kindName, hb, Json.leadKind]
  | object hb => simp [Node.span, Node.kindName, hb, Json.leadKind]


/-- A slice that is not empty starts with the byte at its start. -/
theorem byteAt_extract_zero {i j : ℕ} (h : 0 < (bs.extract i j).size) :
    Utf8.byteAt (bs.extract i j) 0 = Utf8.byteAt bs i := by
  rw [Utf8.size_eq_length, Utf8.extract_toList] at h
  rw [Utf8.byteAt_eq, Utf8.byteAt_eq, Utf8.extract_toList]
  have hj : 0 < j - i := by
    simp only [List.length_take] at h
    omega
  simp [List.getD_eq_getElem?_getD, hj]

/-- A value's own bytes, read again, are a value of the same kind: the byte that starts it
decides. -/
theorem parse_raw_kind {n m : Node} (hn : n.ReadFrom bs) (h : parse (n.raw bs) = .ok m) :
    m.kindName = n.kindName := by
  rcases Nat.eq_zero_or_pos (n.raw bs).size with h0 | hpos
  · obtain ⟨e, he⟩ := parse_of_size_eq_zero h0
    rw [he] at h
    cases h
  have hb0 : Utf8.byteAt (n.raw bs) 0 = Utf8.byteAt bs n.span.start := byteAt_extract_zero hpos
  have hlead := hn.leadKind
  obtain ⟨hstart, hm⟩ := parse_readFrom h
  have hskip : skipSpace (n.raw bs) 0 = 0 :=
    skipSpace_of_not_space (by rw [hb0]; exact isSpace_of_leadKind hlead)
  have hkind := hm.leadKind
  rw [hstart, hskip, hb0, hlead] at hkind
  exact (Option.some.inj hkind).symm

/-- `null` read out of a document is the four bytes of the word. -/
theorem extract_null {i j : ℕ} (hn : (Node.null ⟨i, j⟩).ReadFrom bs) :
    bs.extract i j = "null".toUTF8 := by
  cases hn with
  | null hbytes =>
  obtain ⟨rest, hrest⟩ := hbytes
  have hw : "null".toUTF8.data.toList.length = 4 := by decide
  apply ByteArray.ext
  apply Array.ext'
  rw [Utf8.extract_toList, hrest, Nat.add_sub_cancel_left, ← hw, List.take_left]

end TurnRelay.Json
