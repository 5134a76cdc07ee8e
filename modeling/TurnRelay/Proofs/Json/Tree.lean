import Mathlib
import TurnRelay.Proofs.Text.Utf8
import TurnRelay.Json.Syntax

/-!
# The trees the JSON reader builds

`parse` hands back a `Node` tree with a source span for every value. This module records what
each node of such a tree says about the source (`Node.ReadFrom`): a value's span starts at the
byte that decides its kind, a string's span is what `stringBody` read from the byte after its
opening quote, and `null` is the four bytes of the word. Containers carry the same facts for
their elements and members.

What one step of each reader can do is said once, as a relation with one case per branch that
accepts (`ValueRead`, `ElementsRead`, `MembersRead`), equivalent to the reader's answer with one
more unit of fuel (`value_succ_eq_ok`, `elements_succ_eq_ok`, `members_succ_eq_ok`); `parse_eq_ok`
does the same for a whole document. The inductions on the fuel, here and in the modules that
follow, go through these cases.

`readFrom_of_fuel` proves that every value `value` reads is read from its source, by induction
on the reader's fuel together with the elements and members it reads, and `parse_readFrom` of
every document `parse` accepts.
-/

namespace TurnRelay.Json

/-- What a node of a tree the reader built says about the source `bs`. -/
inductive Node.ReadFrom (bs : ByteArray) : Node → Prop
  | null {i : ℕ} : (∃ rest, bs.data.toList.drop i = "null".toUTF8.data.toList ++ rest) →
      ReadFrom bs (.null ⟨i, i + 4⟩)
  | bool {i j : ℕ} {b : Bool} : Utf8.byteAt bs i = 0x74 ∨ Utf8.byteAt bs i = 0x66 →
      ReadFrom bs (.bool ⟨i, j⟩ b)
  | number {i j : ℕ} : Utf8.byteAt bs i = 0x2D ∨ isDigitByte (Utf8.byteAt bs i) = true →
      ReadFrom bs (.number ⟨i, j⟩)
  | string {i j : ℕ} {s : String} : Utf8.byteAt bs i = 0x22 →
      stringBody bs (i + 1) "" = .ok (s, j) → ReadFrom bs (.string ⟨i, j⟩ s)
  | array {i j : ℕ} {items : List Node} : Utf8.byteAt bs i = 0x5B →
      (∀ n ∈ items, ReadFrom bs n) → ReadFrom bs (.array ⟨i, j⟩ items)
  | object {i j : ℕ} {members : List (String × Node)} : Utf8.byteAt bs i = 0x7B →
      (∀ m ∈ members, ReadFrom bs m.2) → ReadFrom bs (.object ⟨i, j⟩ members)

/-- What the word loop of `literal` checks: every byte of the word stands in the source. -/
theorem literal_loop_ok {bs w : ByteArray} {i k fuel j : ℕ} {word : String}
    (hk : k + fuel = w.size) (h : literal.loop bs i word w k fuel = .ok j) :
    j = i + w.size ∧ ∀ m, k ≤ m → m < w.size →
      i + m < bs.size ∧ Utf8.byteAt bs (i + m) = Utf8.byteAt w m := by
  induction fuel generalizing k with
  | zero =>
    rw [literal.loop] at h
    cases h
    exact ⟨by omega, fun m hkm hm => absurd hm (by omega)⟩
  | succ fuel ih =>
    rw [literal.loop] at h
    split_ifs at h with hend hout hbyte
    · omega
    · obtain ⟨hj, hbytes⟩ := ih (by omega) h
      refine ⟨hj, fun m hkm hm => ?_⟩
      rcases Nat.eq_or_lt_of_le hkm with rfl | hlt
      · exact ⟨by omega, beq_iff_eq.mp hbyte⟩
      · exact hbytes m hlt hm

/-- The word `null` the reader accepted stands in the source. -/
theorem literal_null {bs : ByteArray} {i j : ℕ} (h : literal bs i "null" = .ok j) :
    j = i + 4 ∧ ∃ rest, bs.data.toList.drop i = "null".toUTF8.data.toList ++ rest := by
  have hw : "null".toUTF8.data.toList = [0x6E, 0x75, 0x6C, 0x6C] := by decide
  have hsize : "null".toUTF8.size = 4 := by rw [Utf8.size_eq_length, hw]; rfl
  obtain ⟨hj, hbytes⟩ := literal_loop_ok (by rw [Nat.zero_add]) h
  -- the four bytes at `i`, read one by one
  have hbyte : ∀ m < 4, (bs.data.toList.drop i).getD m 0 = [0x6E, 0x75, 0x6C, 0x6C].getD m 0 := by
    intro m hm
    have := (hbytes m (Nat.zero_le m) (by omega)).2
    rw [Utf8.byteAt_eq, Utf8.byteAt_eq, hw] at this
    simpa using this
  have hlen : 4 ≤ (bs.data.toList.drop i).length := by
    have := (hbytes 3 (by omega) (by omega)).1
    simp only [List.length_drop, Array.length_toList, ByteArray.size_data] at this ⊢
    omega
  refine ⟨by omega, ?_⟩
  rw [hw]
  rcases hd : bs.data.toList.drop i with _ | ⟨a, _ | ⟨b, _ | ⟨c, _ | ⟨d, rest⟩⟩⟩⟩
  all_goals rw [hd] at hbyte hlen
  all_goals simp only [List.length_nil, List.length_cons] at hlen
  any_goals omega
  refine ⟨rest, ?_⟩
  have h0 := hbyte 0 (by omega)
  have h1 := hbyte 1 (by omega)
  have h2 := hbyte 2 (by omega)
  have h3 := hbyte 3 (by omega)
  simp only [List.getD_cons_zero, List.getD_cons_succ] at h0 h1 h2 h3
  rw [h0, h1, h2, h3]
  rfl


variable {bs : ByteArray}

theorem map_eq_ok {α β ε : Type} {f : α → β} {x : Except ε α} {b : β}
    (h : x.map f = .ok b) : ∃ a, x = .ok a ∧ f a = b := by
  cases x with
  | error e => cases h
  | ok a => exact ⟨a, rfl, by cases h; rfl⟩

/-- Past a check that can only fail the read, an `.ok` answer comes from what follows it. -/
theorem ok_of_ite_error {α ε : Type} {c : Prop} [Decidable c] {e : ε} {x : Except ε α} {a : α}
    (h : (if c then .error e else x) = .ok a) : ¬c ∧ x = .ok a := by
  by_cases hc : c
  · rw [if_pos hc] at h
    cases h
  · rw [if_neg hc] at h
    exact ⟨hc, h⟩

/-- What an accumulator holds after one more element read from the source. -/
theorem readFrom_push {α : Type} {f : α → Node} {acc : Array α} {v : α}
    (hacc : ∀ m ∈ acc.toList, (f m).ReadFrom bs) (hv : (f v).ReadFrom bs) :
    ∀ m ∈ (acc.push v).toList, (f m).ReadFrom bs := by
  simp only [Array.toList_push, List.mem_append, List.mem_singleton]
  rintro m (hm | rfl)
  · exact hacc m hm
  · exact hv

/-! ## One step of the reader

What each of `value`, `elements` and `members` can do with one more unit of fuel, said once
(`value_succ_eq_ok`, `elements_succ_eq_ok`, `members_succ_eq_ok`): the inductions on the fuel
here and in later modules go through these cases and never unfold the readers. -/

/-- A byte that starts a number starts nothing else. -/
theorem number_lead_ne {b : UInt8} (hb : b = 0x2D ∨ isDigitByte b = true) :
    b ≠ 0x7B ∧ b ≠ 0x5B ∧ b ≠ 0x22 ∧ b ≠ 0x74 ∧ b ≠ 0x66 ∧ b ≠ 0x6E := by
  rcases hb with rfl | hd
  · decide
  · simp only [isDigitByte, Bool.and_eq_true, decide_eq_true_eq, UInt8.le_iff_toNat_le,
      UInt8.reduceToNat] at hd
    simp only [ne_eq, ← UInt8.toNat_inj, UInt8.reduceToNat]
    omega

/-- The ways `value` accepts a value at `i` with one unit of fuel more than `fuel`: one case for
each kind of value, with what its branch checked. -/
inductive ValueRead (bs : ByteArray) (fuel depth i : ℕ) : Node → ℕ → Prop
  | emptyObject : Utf8.byteAt bs i = 0x7B → depth + 1 ≤ maxDepth →
      skipSpace bs (i + 1) < bs.size → Utf8.byteAt bs (skipSpace bs (i + 1)) = 0x7D →
      ValueRead bs fuel depth i (.object ⟨i, skipSpace bs (i + 1) + 1⟩ []) (skipSpace bs (i + 1) + 1)
  | object {n : Node} {j : ℕ} : Utf8.byteAt bs i = 0x7B → depth + 1 ≤ maxDepth →
      skipSpace bs (i + 1) < bs.size → Utf8.byteAt bs (skipSpace bs (i + 1)) ≠ 0x7D →
      members bs fuel (depth + 1) i (skipSpace bs (i + 1)) #[] = .ok (n, j) →
      ValueRead bs fuel depth i n j
  | emptyArray : Utf8.byteAt bs i = 0x5B → depth + 1 ≤ maxDepth →
      skipSpace bs (i + 1) < bs.size → Utf8.byteAt bs (skipSpace bs (i + 1)) = 0x5D →
      ValueRead bs fuel depth i (.array ⟨i, skipSpace bs (i + 1) + 1⟩ []) (skipSpace bs (i + 1) + 1)
  | array {n : Node} {j : ℕ} : Utf8.byteAt bs i = 0x5B → depth + 1 ≤ maxDepth →
      skipSpace bs (i + 1) < bs.size → Utf8.byteAt bs (skipSpace bs (i + 1)) ≠ 0x5D →
      elements bs fuel (depth + 1) i (skipSpace bs (i + 1)) #[] = .ok (n, j) →
      ValueRead bs fuel depth i n j
  | string {text : String} {j : ℕ} : Utf8.byteAt bs i = 0x22 →
      stringBody bs (i + 1) "" = .ok (text, j) → ValueRead bs fuel depth i (.string ⟨i, j⟩ text) j
  | trueWord {j : ℕ} : Utf8.byteAt bs i = 0x74 → literal bs i "true" = .ok j →
      ValueRead bs fuel depth i (.bool ⟨i, j⟩ true) j
  | falseWord {j : ℕ} : Utf8.byteAt bs i = 0x66 → literal bs i "false" = .ok j →
      ValueRead bs fuel depth i (.bool ⟨i, j⟩ false) j
  | nullWord {j : ℕ} : Utf8.byteAt bs i = 0x6E → literal bs i "null" = .ok j →
      ValueRead bs fuel depth i (.null ⟨i, j⟩) j
  | number {j : ℕ} : (Utf8.byteAt bs i = 0x2D ∨ isDigitByte (Utf8.byteAt bs i) = true) →
      number bs i = .ok j → ValueRead bs fuel depth i (.number ⟨i, j⟩) j

/-- `value` with one more unit of fuel accepts exactly the values of `ValueRead`, inside the
source. -/
theorem value_succ_eq_ok {fuel depth i j : ℕ} {n : Node} :
    value bs (fuel + 1) depth i = .ok (n, j) ↔ i < bs.size ∧ ValueRead bs fuel depth i n j := by
  constructor
  · intro h
    rw [value] at h
    dsimp only at h
    obtain ⟨hi, h⟩ := ok_of_ite_error h
    refine ⟨by omega, ?_⟩
    -- down the reader's checks of the lead byte, in its order
    by_cases hb1 : (Utf8.byteAt bs i == 0x7B) = true
    · rw [if_pos hb1] at h
      obtain ⟨hd, h⟩ := ok_of_ite_error h
      obtain ⟨hs, h⟩ := ok_of_ite_error h
      by_cases hc : (Utf8.byteAt bs (skipSpace bs (i + 1)) == 0x7D) = true
      · rw [if_pos hc] at h
        cases h
        exact .emptyObject (beq_iff_eq.1 hb1) (by omega) (by omega) (beq_iff_eq.1 hc)
      · rw [if_neg hc] at h
        exact .object (beq_iff_eq.1 hb1) (by omega) (by omega) (by simpa using hc) h
    rw [if_neg hb1] at h
    by_cases hb2 : (Utf8.byteAt bs i == 0x5B) = true
    · rw [if_pos hb2] at h
      obtain ⟨hd, h⟩ := ok_of_ite_error h
      obtain ⟨hs, h⟩ := ok_of_ite_error h
      by_cases hc : (Utf8.byteAt bs (skipSpace bs (i + 1)) == 0x5D) = true
      · rw [if_pos hc] at h
        cases h
        exact .emptyArray (beq_iff_eq.1 hb2) (by omega) (by omega) (beq_iff_eq.1 hc)
      · rw [if_neg hc] at h
        exact .array (beq_iff_eq.1 hb2) (by omega) (by omega) (by simpa using hc) h
    rw [if_neg hb2] at h
    by_cases hb3 : (Utf8.byteAt bs i == 0x22) = true
    · rw [if_pos hb3] at h
      split at h
      · cases h
        exact .string (beq_iff_eq.1 hb3) ‹_›
      · cases h
    rw [if_neg hb3] at h
    by_cases hb4 : (Utf8.byteAt bs i == 0x74) = true
    · rw [if_pos hb4] at h
      obtain ⟨k, hl, hk⟩ := map_eq_ok h
      cases hk
      exact .trueWord (beq_iff_eq.1 hb4) hl
    rw [if_neg hb4] at h
    by_cases hb5 : (Utf8.byteAt bs i == 0x66) = true
    · rw [if_pos hb5] at h
      obtain ⟨k, hl, hk⟩ := map_eq_ok h
      cases hk
      exact .falseWord (beq_iff_eq.1 hb5) hl
    rw [if_neg hb5] at h
    by_cases hb6 : (Utf8.byteAt bs i == 0x6E) = true
    · rw [if_pos hb6] at h
      obtain ⟨k, hl, hk⟩ := map_eq_ok h
      cases hk
      exact .nullWord (beq_iff_eq.1 hb6) hl
    rw [if_neg hb6] at h
    by_cases hb7 : (Utf8.byteAt bs i == 0x2D || isDigitByte (Utf8.byteAt bs i)) = true
    · rw [if_pos hb7] at h
      obtain ⟨k, hl, hk⟩ := map_eq_ok h
      cases hk
      exact .number (by simpa using hb7) hl
    rw [if_neg hb7] at h
    cases h
  · rintro ⟨hi, hread⟩
    rw [value, if_neg (by omega)]
    dsimp only
    cases hread with
    | emptyObject hb hd hs hc =>
      rw [hb, if_pos (by decide), if_neg (by omega), if_neg (by omega), hc, if_pos (by decide)]
    | object hb hd hs hc h =>
      rw [hb, if_pos (by decide), if_neg (by omega), if_neg (by omega), if_neg (by simpa using hc), h]
    | emptyArray hb hd hs hc =>
      rw [hb, if_neg (by decide), if_pos (by decide), if_neg (by omega), if_neg (by omega), hc,
        if_pos (by decide)]
    | array hb hd hs hc h =>
      rw [hb, if_neg (by decide), if_pos (by decide), if_neg (by omega), if_neg (by omega),
        if_neg (by simpa using hc), h]
    | string hb h =>
      rw [hb, if_neg (by decide), if_neg (by decide), if_pos (by decide), h]
    | trueWord hb h =>
      rw [hb, if_neg (by decide), if_neg (by decide), if_neg (by decide), if_pos (by decide), h]
      rfl
    | falseWord hb h =>
      rw [hb, if_neg (by decide), if_neg (by decide), if_neg (by decide), if_neg (by decide),
        if_pos (by decide), h]
      rfl
    | nullWord hb h =>
      rw [hb, if_neg (by decide), if_neg (by decide), if_neg (by decide), if_neg (by decide),
        if_neg (by decide), if_pos (by decide), h]
      rfl
    | number hb h =>
      obtain ⟨h1, h2, h3, h4, h5, h6⟩ := number_lead_ne hb
      simp only [beq_iff_eq, Bool.or_eq_true, h1, h2, h3, h4, h5, h6, hb, if_false, if_true, h]
      rfl

/-- The ways `elements` reads the rest of an array with one unit of fuel more than `fuel`: an
element followed by a comma and more elements, or the last element and the closing bracket. -/
inductive ElementsRead (bs : ByteArray) (fuel depth start i : ℕ) (acc : Array Node) : Node → ℕ → Prop
  | more {v : Node} {j : ℕ} {n : Node} {k : ℕ} : value bs fuel depth i = .ok (v, j) →
      skipSpace bs j < bs.size → Utf8.byteAt bs (skipSpace bs j) = 0x2C →
      elements bs fuel depth start (skipSpace bs (skipSpace bs j + 1)) (acc.push v) = .ok (n, k) →
      ElementsRead bs fuel depth start i acc n k
  | last {v : Node} {j : ℕ} : value bs fuel depth i = .ok (v, j) →
      skipSpace bs j < bs.size → Utf8.byteAt bs (skipSpace bs j) = 0x5D →
      ElementsRead bs fuel depth start i acc (.array ⟨start, skipSpace bs j + 1⟩ (acc.push v).toList)
        (skipSpace bs j + 1)

theorem elements_succ_eq_ok {fuel depth start i k : ℕ} {acc : Array Node} {n : Node} :
    elements bs (fuel + 1) depth start i acc = .ok (n, k) ↔
      ElementsRead bs fuel depth start i acc n k := by
  constructor
  · intro h
    rw [elements] at h
    split at h
    · cases h
    · rename_i v j hv
      dsimp only at h
      split_ifs at h with hs hc1 hc2
      · exact .more hv (by omega) (beq_iff_eq.1 hc1) h
      · cases h
        exact .last hv (by omega) (beq_iff_eq.1 hc2)
  · intro hread
    rw [elements]
    cases hread with
    | more hv hs hc h =>
      rw [hv]
      dsimp only
      rw [if_neg (by omega), hc, if_pos (by decide), h]
    | last hv hs hc =>
      rw [hv]
      dsimp only
      rw [if_neg (by omega), hc, if_neg (by decide), if_pos (by decide)]

/-- The ways `members` reads the rest of an object with one unit of fuel more than `fuel`: a
name, a colon and a value, followed by a comma and more members, or by the closing brace. -/
inductive MembersRead (bs : ByteArray) (fuel depth start i : ℕ) (acc : Array (String × Node)) :
    Node → ℕ → Prop
  | more {name : String} {j : ℕ} {v : Node} {k : ℕ} {n : Node} {l : ℕ} : i < bs.size →
      Utf8.byteAt bs i = 0x22 → stringBody bs (i + 1) "" = .ok (name, j) →
      skipSpace bs j < bs.size → Utf8.byteAt bs (skipSpace bs j) = 0x3A →
      value bs fuel depth (skipSpace bs (skipSpace bs j + 1)) = .ok (v, k) →
      skipSpace bs k < bs.size → Utf8.byteAt bs (skipSpace bs k) = 0x2C →
      members bs fuel depth start (skipSpace bs (skipSpace bs k + 1)) (acc.push (name, v)) =
        .ok (n, l) →
      MembersRead bs fuel depth start i acc n l
  | last {name : String} {j : ℕ} {v : Node} {k : ℕ} : i < bs.size →
      Utf8.byteAt bs i = 0x22 → stringBody bs (i + 1) "" = .ok (name, j) →
      skipSpace bs j < bs.size → Utf8.byteAt bs (skipSpace bs j) = 0x3A →
      value bs fuel depth (skipSpace bs (skipSpace bs j + 1)) = .ok (v, k) →
      skipSpace bs k < bs.size → Utf8.byteAt bs (skipSpace bs k) = 0x7D →
      MembersRead bs fuel depth start i acc
        (.object ⟨start, skipSpace bs k + 1⟩ (acc.push (name, v)).toList) (skipSpace bs k + 1)

theorem members_succ_eq_ok {fuel depth start i l : ℕ} {acc : Array (String × Node)} {n : Node} :
    members bs (fuel + 1) depth start i acc = .ok (n, l) ↔
      MembersRead bs fuel depth start i acc n l := by
  constructor
  · intro h
    rw [members] at h
    dsimp only at h
    -- the name, the colon and the value, each a check that can only fail the read
    obtain ⟨hi, h⟩ := ok_of_ite_error h
    obtain ⟨hq, h⟩ := ok_of_ite_error h
    split at h
    · cases h
    rename_i name j hname
    obtain ⟨hs, h⟩ := ok_of_ite_error h
    obtain ⟨hcolon, h⟩ := ok_of_ite_error h
    split at h
    · cases h
    rename_i v k hv
    obtain ⟨hk, h⟩ := ok_of_ite_error h
    by_cases hc1 : (Utf8.byteAt bs (skipSpace bs k) == 0x2C) = true
    · rw [if_pos hc1] at h
      exact .more (by omega) (by simpa using hq) hname (by omega) (by simpa using hcolon) hv
        (by omega) (beq_iff_eq.1 hc1) h
    rw [if_neg hc1] at h
    by_cases hc2 : (Utf8.byteAt bs (skipSpace bs k) == 0x7D) = true
    · rw [if_pos hc2] at h
      cases h
      exact .last (by omega) (by simpa using hq) hname (by omega) (by simpa using hcolon) hv
        (by omega) (beq_iff_eq.1 hc2)
    rw [if_neg hc2] at h
    cases h
  · intro hread
    rw [members]
    dsimp only
    cases hread with
    | more hi hq hname hs hcolon hv hk hc h =>
      rw [if_neg (by omega), hq, if_neg (by decide), hname]
      dsimp only
      rw [if_neg (by omega), hcolon, if_neg (by decide), hv]
      dsimp only
      rw [if_neg (by omega), hc, if_pos (by decide), h]
    | last hi hq hname hs hcolon hv hk hc =>
      rw [if_neg (by omega), hq, if_neg (by decide), hname]
      dsimp only
      rw [if_neg (by omega), hcolon, if_neg (by decide), hv]
      dsimp only
      rw [if_neg (by omega), hc, if_neg (by decide), if_pos (by decide)]

/-- Every value, array and object the reader reads is a tree read from its source: by induction
on the fuel, the three readers together. -/
theorem readFrom_of_fuel (fuel : ℕ) :
    (∀ {depth i n j}, value bs fuel depth i = .ok (n, j) → n.span.start = i ∧ n.ReadFrom bs) ∧
    (∀ {depth start i acc n j}, Utf8.byteAt bs start = 0x5B → (∀ m ∈ acc.toList, m.ReadFrom bs) →
      elements bs fuel depth start i acc = .ok (n, j) → n.span.start = start ∧ n.ReadFrom bs) ∧
    (∀ {depth start i acc n j}, Utf8.byteAt bs start = 0x7B →
      (∀ m ∈ acc.toList, m.2.ReadFrom bs) →
      members bs fuel depth start i acc = .ok (n, j) → n.span.start = start ∧ n.ReadFrom bs) := by
  induction fuel with
  | zero =>
    refine ⟨fun h => ?_, fun _ _ h => ?_, fun _ _ h => ?_⟩ <;> simp [value, elements, members] at h
  | succ fuel ih =>
    obtain ⟨ihv, ihe, ihm⟩ := ih
    refine ⟨fun h => ?_, fun hstart hacc h => ?_, fun hstart hacc h => ?_⟩
    · -- one case for each kind of value
      obtain ⟨-, hread⟩ := value_succ_eq_ok.1 h
      cases hread with
      | emptyObject hb => exact ⟨rfl, .object hb (by simp)⟩
      | object hb _ _ _ hm => exact ihm hb (by simp) hm
      | emptyArray hb => exact ⟨rfl, .array hb (by simp)⟩
      | array hb _ _ _ he => exact ihe hb (by simp) he
      | string hb hs => exact ⟨rfl, .string hb hs⟩
      | trueWord hb => exact ⟨rfl, .bool (.inl hb)⟩
      | falseWord hb => exact ⟨rfl, .bool (.inr hb)⟩
      | nullWord _ hl =>
        obtain ⟨rfl, hbytes⟩ := literal_null hl
        exact ⟨rfl, .null hbytes⟩
      | number hb => exact ⟨rfl, .number hb⟩
    · cases elements_succ_eq_ok.1 h with
      | more hv _ _ hrest => exact ihe hstart (readFrom_push (f := id) hacc (ihv hv).2) hrest
      | last hv => exact ⟨rfl, .array hstart (readFrom_push (f := id) hacc (ihv hv).2)⟩
    · cases members_succ_eq_ok.1 h with
      | more _ _ _ _ _ hv _ _ hrest =>
        exact ihm hstart (readFrom_push (f := Prod.snd) hacc (ihv hv).2) hrest
      | last _ _ _ _ _ hv =>
        exact ⟨rfl, .object hstart (readFrom_push (f := Prod.snd) hacc (ihv hv).2)⟩

/-- A document the reader accepts is one value, read from the first byte that is not white
space, with nothing but white space after it. -/
theorem parse_eq_ok {n : Node} :
    parse bs = .ok n ↔
      ∃ j, value bs (2 * bs.size + 4) 0 (skipSpace bs 0) = .ok (n, j) ∧ bs.size ≤ skipSpace bs j := by
  rw [parse]
  constructor
  · intro h
    split at h
    · cases h
    · rename_i v j hv
      dsimp only at h
      split_ifs at h with hk
      cases h
      exact ⟨j, hv, by omega⟩
  · rintro ⟨j, hv, hk⟩
    rw [hv]
    dsimp only
    rw [if_neg (by omega)]

/-- Every value of a document the reader accepts is a tree read from the document. -/
theorem parse_readFrom {n : Node} (h : parse bs = .ok n) :
    n.span.start = skipSpace bs 0 ∧ n.ReadFrom bs := by
  obtain ⟨j, hv, -⟩ := parse_eq_ok.1 h
  exact (readFrom_of_fuel _).1 hv

end TurnRelay.Json
