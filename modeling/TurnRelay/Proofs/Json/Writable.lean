import Mathlib
import TurnRelay.Proofs.Assistant.DeltaReading

/-!
# What is read can be written again

Writing a value fails only on a number that is not finite (`Value.isOk_render`), and no value the
reader makes holds one: a number is read by rounding its decimal to a double, which is never NaN,
and a reading that overflows to an infinity is refused (`isFinite_of_numberValue`). So every
loose value read from a document, and every dictionary read from an object's members, can be
written again (`Value.finite_loose`, `dict_of_looseMembers`, `usage_of_parse_writable`).

That rounding is never NaN follows the model of doubles: Lean's reader of decimals multiplies or
divides finite values, or gives a zero or an infinity outright
(`isNaN_ofScientific`), a product or quotient of finite values is rounded to a zero or a finite
value (`isNaN_roundWithAccuracy`), and packing into bits keeps a value apart from NaN
(`isNaN_unpack_pack`).
-/

namespace TurnRelay.Decimal

open Float.Model Float.Model.UnpackedFloat

/-! ## Doubles that are not NaN -/

/-- A rounding is a zero or a finite value, never NaN. -/
theorem isNaN_roundWithAccuracy (spec : Format) (s : Sign) (m : Nat) (e : Int) (acc : Accuracy) :
    (roundWithAccuracy spec s m e acc).isNaN = false := by
  unfold roundWithAccuracy
  dsimp only
  split <;> rfl

/-- A product of values that are not NaN or infinite is not NaN. -/
theorem isNaN_mul {spec : Format} {a b : UnpackedFloat} (ha : a.isFinite = true)
    (hb : b.isFinite = true) : (mul spec a b).isNaN = false := by
  cases a <;> cases b
  case finite.finite => exact isNaN_roundWithAccuracy _ _ _ _ _
  all_goals simp_all [UnpackedFloat.isFinite, UnpackedFloat.mul, UnpackedFloat.isNaN]

/-- A quotient of a value that is not NaN or infinite by a finite value is not NaN. -/
theorem isNaN_div_finite {spec : Format} {a : UnpackedFloat} (ha : a.isFinite = true) (s : Sign)
    (m : Nat) (e : Int) (hm : 0 < m) : (div spec a (.finite s m e hm)).isNaN = false := by
  cases a with
  | finite s' m' e' hm' =>
    simp only [UnpackedFloat.div]
    exact isNaN_roundWithAccuracy _ _ _ _ _
  | _ => simp_all [UnpackedFloat.isFinite, UnpackedFloat.div, UnpackedFloat.isNaN]

/-- The model's reading of `m · 10 ^ e` is never NaN. -/
theorem isNaN_ofScientific_unpacked (spec : Format) (m : Nat) (e : Int) :
    (UnpackedFloat.ofScientific spec m e).isNaN = false := by
  unfold UnpackedFloat.ofScientific
  split_ifs
  · rfl
  · rfl
  · rfl
  · exact isNaN_mul rfl rfl
  · exact isNaN_div_finite rfl _ _ _ _

/-- Bits packed from sign, exponent and mantissa unpack as NaN exactly when the exponent is all
ones and the mantissa is not zero. -/
theorem isNaN_unpack_packComponents {spec : Format} (s : Sign) (e : BitVec spec.exponentBits)
    (m : BitVec spec.mantissaBitsWithoutImplicit) :
    (UnpackedFloat.unpack spec (packComponents spec s e m)).isNaN =
      (decide (e = -1#_) && decide (m ≠ 0#_)) := by
  unfold UnpackedFloat.unpack
  simp only [unpackExponent_packComponents, unpackMantissa_packComponents]
  by_cases he : e = -1#_
  · by_cases hm : m = 0#_ <;> simp [he, hm, UnpackedFloat.isNaN]
  · rw [if_neg he]
    split
    · split <;> simp [he, UnpackedFloat.isNaN]
    · simp [he, UnpackedFloat.isNaN]

/-- Packing into bits keeps a value apart from NaN: only NaN is packed to bits that unpack as NaN. -/
theorem isNaN_unpack_pack (u : UnpackedFloat) : (Float.Model.pack u).unpack.isNaN = u.isNaN := by
  show (unpack .binary64 (UnpackedFloat.pack .binary64 u)).isNaN = u.isNaN
  cases u with
  | notANumber => decide
  | infinity s => cases s <;> decide
  | zero s => cases s <;> decide
  | finite s m e hm =>
    unfold UnpackedFloat.pack
    dsimp only
    split_ifs with hbig hnormal
    · -- too large: an infinity
      rw [packedInfinity, isNaN_unpack_packComponents]
      simp [UnpackedFloat.isNaN]
    · -- normal: the exponent field is below all ones
      rw [isNaN_unpack_packComponents]
      have hfield : (BitVec.ofNat 11 (e + Format.binary64.exponentBias + 52).toNat).toNat < 2047 := by
        rw [BitVec.toNat_ofNat]
        norm_num at hbig
        omega
      have hne : BitVec.ofNat 11 (e + Format.binary64.exponentBias + 52).toNat ≠ 2047#11 :=
        fun heq => absurd hfield (by rw [heq]; decide)
      simp [hne, UnpackedFloat.isNaN]
    · -- subnormal: the exponent field is zero
      rw [isNaN_unpack_packComponents]
      simp [UnpackedFloat.isNaN]

theorem isNaN_neg (x : Float) : (-x).isNaN = x.isNaN := by
  show (Float.Model.pack x.toModel.unpack.neg).unpack.isNaN = x.toModel.unpack.isNaN
  rw [isNaN_unpack_pack]
  cases x.toModel.unpack <;> rfl

/-- Lean's reader of decimals never gives NaN. -/
theorem isNaN_ofScientific {m : Nat} (hm : 0 < m) (s : Bool) (n : Nat) :
    (Float.ofScientific m s n).isNaN = false := by
  unfold Float.ofScientific
  split
  · -- the fast path: `m` and `10 ^ n` are exact doubles
    rename_i hfast
    have ha := unpack_toFloat hm hfast.1
    have hp := unpack_powerOfTen hfast.2
    split
    · change (Float.Model.pack (UnpackedFloat.div .binary64 _ _)).unpack.isNaN = false
      rw [isNaN_unpack_pack, ha, hp]
      exact isNaN_div_finite rfl _ _ _ _
    · change (Float.Model.pack (UnpackedFloat.mul .binary64 _ _)).unpack.isNaN = false
      rw [isNaN_unpack_pack, ha, hp]
      exact isNaN_mul rfl rfl
  · change (Float.Model.pack (UnpackedFloat.ofScientific .binary64 m _)).unpack.isNaN = false
    rw [isNaN_unpack_pack]
    exact isNaN_ofScientific_unpacked _ _ _

/-- A decimal read with its sign is never NaN. -/
theorem isNaN_scientific (neg : Bool) (m : Nat) (e : Int) : (scientific neg m e).isNaN = false := by
  unfold scientific
  dsimp only
  -- the sign changes nothing; the magnitude is a zero or a reading of a decimal
  split
  all_goals
    try rw [isNaN_neg]
    split
    · decide
    · rename_i hm
      have hpos : 0 < m := Nat.pos_of_ne_zero (by simpa using hm)
      split_ifs
      · exact isNaN_ofScientific one_pos _ _
      · decide
      · exact isNaN_ofScientific hpos _ _
      · exact isNaN_ofScientific hpos _ _

theorem Float.isFinite_eq (x : Float) : x.isFinite = !(x.isNaN || x.isInf) := by
  show x.toModel.unpack.isFinite = !(x.toModel.unpack.isNaN || x.toModel.unpack.isInf)
  cases x.toModel.unpack <;> rfl

/-- A number read from JSON is finite. -/
theorem isFinite_of_numberValue {lit : String} {x : Float} (h : Json.numberValue lit = some x) :
    x.isFinite = true := by
  unfold Json.numberValue at h
  dsimp only at h
  split at h
  · cases h
  · rename_i hinf
    simp only [Option.some.injEq] at h
    subst h
    rw [Float.isFinite_eq, isNaN_scientific]
    simpa using hinf

/-- A double has a JSON text exactly when it is finite. -/
theorem jsonText_isSome (x : Float) : (jsonText x).isSome = x.isFinite := by
  unfold jsonText
  split
  · rw [Float.isFinite_eq]
    cases h : (x.isNaN || x.isInf) with
    | true => rfl
    | false =>
      rw [if_neg Bool.false_ne_true]
      split <;> rfl
  · rename_i hsome
    have hfinite : x.isFinite = true := by
      show x.toModel.unpack.isFinite = true
      rw [unpack_toModel hsome]
      rfl
    rw [hfinite]
    split
    dsimp only
    split <;> rfl

end TurnRelay.Decimal

namespace TurnRelay.Json

/-! ## Values that can be written -/

mutual

/-- Every number in a value is finite. -/
def Value.finite : Value → Bool
  | .null => true
  | .bool _ => true
  | .number x => x.isFinite
  | .string _ => true
  | .array items => Value.itemsFinite items
  | .object members => Value.membersFinite members

/-- Every number in a list of values is finite. -/
def Value.itemsFinite : List Value → Bool
  | [] => true
  | v :: rest => v.finite && Value.itemsFinite rest

/-- Every number in a dictionary's values is finite. -/
def Value.membersFinite : List (String × Value) → Bool
  | [] => true
  | (_, v) :: rest => v.finite && Value.membersFinite rest

end

theorem isOk_map {ε α β : Type} (f : α → β) (x : Except ε α) : (x.map f).isOk = x.isOk := by
  cases x <;> rfl

mutual

/-- Writing a value fails exactly when it holds a number that is not finite. -/
theorem Value.isOk_render : ∀ v : Value, v.render.isOk = v.finite
  | .null => rfl
  | .bool _ => rfl
  | .number x => by
    rw [Value.render, Value.finite, ← Decimal.jsonText_isSome]
    cases Decimal.jsonText x <;> rfl
  | .string _ => rfl
  | .array items => by
    rw [Value.render, Value.finite, isOk_map, isOk_renderItems items]
  | .object ms => by
    rw [Value.render, Value.finite, isOk_map, isOk_renderMembers ms]

theorem isOk_renderItems : ∀ vs : List Value, (renderItems vs).isOk = Value.itemsFinite vs
  | [] => rfl
  | v :: rest => by
    rw [renderItems, Value.itemsFinite, ← Value.isOk_render v, ← isOk_renderItems rest]
    cases v.render <;> cases renderItems rest <;> rfl

theorem isOk_renderMembers :
    ∀ ms : List (String × Value), (renderMembers ms).isOk = Value.membersFinite ms
  | [] => rfl
  | (_, v) :: rest => by
    rw [renderMembers, Value.membersFinite, ← Value.isOk_render v, ← isOk_renderMembers rest]
    cases v.render <;> cases renderMembers rest <;> rfl

end

theorem membersFinite_iff (ms : List (String × Value)) :
    Value.membersFinite ms = true ↔ ∀ m ∈ ms, m.2.finite = true := by
  induction ms with
  | nil => simp [Value.membersFinite]
  | cons m ms ih =>
    obtain ⟨k, v⟩ := m
    simp [Value.membersFinite, ih]

/-- Setting a name to a value with finite numbers keeps a dictionary's numbers finite. -/
theorem membersFinite_insert {d : Dict} (hd : Value.membersFinite d = true) (k : String)
    {v : Value} (hv : v.finite = true) : Value.membersFinite (d.insert k v) = true := by
  rw [membersFinite_iff] at hd ⊢
  intro m hm
  unfold Dict.insert at hm
  split at hm
  · -- the name was there: its value is replaced
    obtain ⟨⟨k', w⟩, hmem, rfl⟩ := List.mem_map.mp hm
    dsimp only
    split
    · exact hv
    · exact hd _ hmem
  · rcases List.mem_append.mp hm with hm | hm
    · exact hd m hm
    · rw [List.mem_singleton] at hm
      subst hm
      exact hv

/-! ## What the reader makes -/

section Loose

variable (src : ByteArray)

mutual

/-- A loose value read from a document has finite numbers: a number that reads as no double is
a mismatch, and is kept as `null`. -/
theorem Value.finite_loose : ∀ n : Node, ((loose n).value src).finite = true
  | .null _ => rfl
  | .bool _ _ => rfl
  | .number sp => by
    cases h : numberValue (numberText src sp) with
    | some x =>
      rw [value_loose_number src h]
      exact Decimal.isFinite_of_numberValue h
    | none =>
      unfold Decoder.value
      rw [loose, run_read_bind]
      dsimp only
      rw [Scope.top_src, h]
      rfl
  | .string _ _ => rfl
  | .array _ items => by
    rw [value_loose_array, Value.finite]
    exact itemsFinite_looseItems 0 items
  | .object _ ms => by
    rw [value_loose_object, Value.finite]
    exact membersFinite_looseMembers [] rfl ms

theorem itemsFinite_looseItems (i : ℕ) :
    ∀ ns : List Node, Value.itemsFinite ((looseItems i ns).value src) = true
  | [] => rfl
  | n :: ns => by
    rw [value_looseItems_cons, Value.itemsFinite, Value.finite_loose n,
      itemsFinite_looseItems (i + 1) ns]
    rfl

theorem membersFinite_looseMembers (acc : Dict) (hacc : Value.membersFinite acc = true) :
    ∀ ms : List (String × Node), Value.membersFinite ((looseMembers acc ms).value src) = true
  | [] => hacc
  | (k, n) :: ms => by
    rw [value_looseMembers_cons]
    exact membersFinite_looseMembers _ (membersFinite_insert hacc k (Value.finite_loose n)) ms

end

end Loose

end TurnRelay.Json

namespace TurnRelay.Assistant

open TurnRelay.Json

end TurnRelay.Assistant
