import TurnRelay.Proofs.Decimal.Bits

/-!
# Reading decimals

A decimal `m · 10 ^ e` is read into a double by `Float.ofScientific`, which divides or multiplies
two exact doubles when `m < 2 ^ 53` and `|e| ≤ 22`, and otherwise computes in the model. Either
way one exact product or quotient is rounded once. `ofScientific_eq_of_rounds` says that the
result is the double whose rounding interval holds the decimal's value, and
`scientific_of_rounds` says the same of `scientific`, which reads a decimal with a sign and guards
the exponents at which the value is surely zero or infinite.
-/

namespace TurnRelay.Decimal

open Float.Model Float.Model.UnpackedFloat

/-! ## Products and quotients -/

/-- The model's product of two finite values, with a mantissa of full width between them, is the
double their exact product rounds to. -/
theorem mul_of_rounds {b : Binary} (hb : b.Canonical) {s₁ s₂ : Sign} {m₁ m₂ : Nat} {e₁ e₂ : ℤ}
    (h₁ : 0 < m₁) (h₂ : 0 < m₂) (hwide : 2 ^ 52 ≤ m₁ * m₂)
    (hv : b.Rounds (m₁ * 2 ^ e₁ * (m₂ * 2 ^ e₂))) :
    UnpackedFloat.mul .binary64 (.finite s₁ m₁ e₁ h₁) (.finite s₂ m₂ e₂ h₂) =
      .finite (s₁ * s₂) b.mantissa b.exponent hb.pos := by
  apply roundWithAccuracy_of_rounds hb _ _ _ hv
  · simp only [Places]
    rw [zpow_add₀ two_ne_zero]
    field_simp
    push_cast
    ring
  · rw [targetExponent_eq]
    have := (Nat.le_log2 (Nat.mul_pos h₁ h₂).ne').mpr hwide
    omega

/-- The remainder of a division places the exact quotient against the integer one. -/
theorem places_accuracyOfFraction (N d : Nat) (hd : 0 < d) :
    Places (accuracyOfFraction (N % d) d) (N / d) ((N : ℚ) / d) := by
  have hdq : (0 : ℚ) < d := by exact_mod_cast hd
  have hsplit : (N : ℚ) / d = (N / d : Nat) + ((N % d : Nat) : ℚ) / d := by
    field_simp
    exact_mod_cast (Nat.div_add_mod N d).symm
  have hr : N % d < d := Nat.mod_lt N hd
  rw [hsplit]
  unfold accuracyOfFraction
  split
  · rename_i h0
    simp [Places, h0]
  · rename_i h0
    have hpos : (0 : ℚ) < ((N % d : Nat) : ℚ) / d := by
      apply div_pos _ hdq
      exact_mod_cast Nat.pos_of_ne_zero h0
    have hone : ((N % d : Nat) : ℚ) / d < 1 := by
      rw [div_lt_one hdq]
      exact_mod_cast hr
    rcases hc : compare (2 * (N % d)) d with _ | _ | _ <;> simp only [Places]
    · have h2 : ((2 * (N % d) : Nat) : ℚ) < d := by exact_mod_cast Nat.compare_eq_lt.mp hc
      push_cast at h2
      have : ((N % d : Nat) : ℚ) / d < 1 / 2 := by
        rw [div_lt_iff₀ hdq]
        linarith
      constructor <;> linarith
    · have h2 : ((2 * (N % d) : Nat) : ℚ) = d := by exact_mod_cast Nat.compare_eq_eq.mp hc
      push_cast at h2
      have : ((N % d : Nat) : ℚ) / d = 1 / 2 := by
        rw [div_eq_iff hdq.ne']
        linarith
      linarith
    · have h2 : (d : ℚ) < ((2 * (N % d) : Nat) : ℚ) := by exact_mod_cast Nat.compare_eq_gt.mp hc
      push_cast at h2
      have : 1 / 2 < ((N % d : Nat) : ℚ) / d := by
        rw [lt_div_iff₀ hdq]
        linarith
      constructor <;> linarith

/-- The quotient the model divides out before rounding: its mantissa, exponent and the
remainder's reading place the exact quotient, and its exponent is not above the one the
quotient's size calls for. -/
theorem divCore_places {m₁ m₂ : Nat} (e₁ e₂ : ℤ) (h₁ : 0 < m₁) (h₂ : 0 < m₂) :
    Places (divCore .binary64 m₁ e₁ m₂ e₂).2.2 (divCore .binary64 m₁ e₁ m₂ e₂).1
        (m₁ * 2 ^ e₁ / (m₂ * 2 ^ e₂) / 2 ^ (divCore .binary64 m₁ e₁ m₂ e₂).2.1) ∧
      (divCore .binary64 m₁ e₁ m₂ e₂).2.1 ≤ Format.binary64.targetExponent
        (totalExponent (divCore .binary64 m₁ e₁ m₂ e₂).1 (divCore .binary64 m₁ e₁ m₂ e₂).2.1) := by
  have hD : Format.binary64.targetExponent (totalExponent m₁ e₁ - totalExponent m₂ e₂) =
      max ((m₁.log2 : ℤ) - m₂.log2 + e₁ - e₂ - 53) (-1074) := by
    simp only [Format.targetExponent, totalExponent, Format.mantissaBits, Format.minExponent]
    norm_num
    omega
  set t := min (e₁ - e₂) (Format.binary64.targetExponent (totalExponent m₁ e₁ - totalExponent m₂ e₂))
    with ht
  set k := (e₁ - e₂ - t).toNat with hk
  have hq : divCore .binary64 m₁ e₁ m₂ e₂ =
      ((m₁ <<< k) / m₂, t, accuracyOfFraction ((m₁ <<< k) % m₂) m₂) := rfl
  rw [hD] at ht
  have hkt : (k : ℤ) = e₁ - e₂ - t := by omega
  rw [hq]
  dsimp only
  constructor
  · -- the exact quotient, scaled to `2 ^ t`, is `(m₁ <<< k) / m₂`
    have hval : (m₁ : ℚ) * 2 ^ e₁ / (m₂ * 2 ^ e₂) / 2 ^ t = ((m₁ <<< k : Nat) : ℚ) / m₂ := by
      rw [Nat.shiftLeft_eq, Nat.cast_mul, Nat.cast_pow, Nat.cast_ofNat, ← zpow_natCast, hkt,
        zpow_sub₀ two_ne_zero, zpow_sub₀ two_ne_zero]
      field_simp
    rw [hval]
    exact places_accuracyOfFraction _ _ h₂
  · rw [targetExponent_eq]
    by_cases hleast : t ≤ -1074
    · omega
    · -- above the least exponent the quotient has a mantissa of full width
      have hwide : t ≤ (m₁.log2 : ℤ) - m₂.log2 + e₁ - e₂ - 53 := by omega
      have hq52 : 2 ^ 52 ≤ (m₁ <<< k) / m₂ := by
        rw [Nat.le_div_iff_mul_le h₂]
        calc 2 ^ 52 * m₂ ≤ 2 ^ 52 * 2 ^ (m₂.log2 + 1) :=
              Nat.mul_le_mul_left _ Nat.lt_log2_self.le
          _ = 2 ^ (m₂.log2 + 53) := by rw [← pow_add]; ring_nf
          _ ≤ 2 ^ (m₁.log2 + k) := Nat.pow_le_pow_right (by norm_num) (by omega)
          _ = 2 ^ m₁.log2 * 2 ^ k := pow_add _ _ _
          _ ≤ m₁ * 2 ^ k := Nat.mul_le_mul_right _ (Nat.log2_self_le h₁.ne')
          _ = m₁ <<< k := (Nat.shiftLeft_eq _ _).symm
      have := (Nat.le_log2 (by omega)).mpr hq52
      omega

/-- The model's quotient of two finite values is the double their exact quotient rounds to. -/
theorem div_of_rounds {b : Binary} (hb : b.Canonical) {s₁ s₂ : Sign} {m₁ m₂ : Nat} {e₁ e₂ : ℤ}
    (h₁ : 0 < m₁) (h₂ : 0 < m₂) (hv : b.Rounds (m₁ * 2 ^ e₁ / (m₂ * 2 ^ e₂))) :
    UnpackedFloat.div .binary64 (.finite s₁ m₁ e₁ h₁) (.finite s₂ m₂ e₂ h₂) =
      .finite (s₁ / s₂) b.mantissa b.exponent hb.pos := by
  obtain ⟨hplace, hE⟩ := divCore_places e₁ e₂ h₁ h₂
  exact roundWithAccuracy_of_rounds hb _ hplace hE hv

/-! ## Reading a decimal -/

theorem Binary.rounds_value (b : Binary) : b.Rounds (b.mantissa * 2 ^ b.exponent) := by
  have hq : (0 : ℚ) < 2 ^ b.exponent := zpow_pos two_pos _
  refine .inl ⟨?_, ?_⟩ <;> simp only [Binary.lower, Binary.upper]
  · split <;> nlinarith
  · nlinarith

theorem log2_shiftLeft {m : Nat} (hm : 0 < m) (s : Nat) : (m <<< s).log2 = m.log2 + s := by
  rw [Nat.log2_eq_iff (Nat.shiftLeft_pos_iff.mpr hm).ne', Nat.shiftLeft_eq]
  constructor
  · rw [pow_add]
    exact Nat.mul_le_mul_right _ (Nat.log2_self_le hm.ne')
  · rw [show m.log2 + s + 1 = m.log2 + 1 + s by omega, pow_add]
    exact Nat.mul_lt_mul_of_pos_right Nat.lt_log2_self (by positivity)

/-- The canonical form of `k · 2 ^ j`, for `0 < k < 2 ^ 53` and an exponent in the normal range:
the mantissa shifted up to 53 bits. -/
def Binary.ofParts (k : Nat) (j : ℤ) : Binary where
  mantissa := k <<< (52 - k.log2)
  exponent := j + k.log2 - 52
  lowerGap := k <<< (52 - k.log2) == 2 ^ 52 && decide (-1074 < j + k.log2 - 52)

theorem Binary.ofParts_canonical {k : Nat} {j : ℤ} (hk : 0 < k) (hk' : k < 2 ^ 53)
    (hlo : -1074 ≤ j + k.log2 - 52) (hhi : j + k.log2 - 52 ≤ 971) : (Binary.ofParts k j).Canonical := by
  have hL : k.log2 < 53 := (Nat.log2_lt hk.ne').mpr hk'
  have hlog : (k <<< (52 - k.log2)).log2 = 52 := by rw [log2_shiftLeft hk]; omega
  have hbounds := (Nat.log2_eq_iff (Nat.shiftLeft_pos_iff.mpr hk).ne').mp hlog
  refine ⟨Nat.shiftLeft_pos_iff.mpr hk, hbounds.2, hlo, hhi, .inl hbounds.1, ?_⟩
  simp [Binary.ofParts]

theorem Binary.ofParts_value {k : Nat} {j : ℤ} (hk' : k < 2 ^ 53) :
    ((Binary.ofParts k j).mantissa : ℚ) * 2 ^ (Binary.ofParts k j).exponent = k * 2 ^ j := by
  rcases Nat.eq_zero_or_pos k with rfl | hk
  · simp [Binary.ofParts]
  have hL : k.log2 < 53 := (Nat.log2_lt hk.ne').mpr hk'
  simp only [Binary.ofParts, Nat.shiftLeft_eq, Nat.cast_mul, Nat.cast_pow, Nat.cast_ofNat]
  rw [← zpow_natCast, mul_assoc, ← zpow_add₀ two_ne_zero]
  congr 2
  omega

/-- A natural number whose value rounds to `b` is converted by the model to `b`. -/
theorem ofNat_of_rounds {b : Binary} (hb : b.Canonical) {m : Nat} (hm : 0 < m)
    (hv : b.Rounds m) : UnpackedFloat.ofNat .binary64 m = .finite .positive b.mantissa b.exponent hb.pos := by
  unfold UnpackedFloat.ofNat UnpackedFloat.ofInt UnpackedFloat.normalize
  rw [Int.compare_eq_gt.mpr (by omega)]
  simp only [Int.toNat_natCast, UnpackedFloat.round, decreaseExponent]
  apply roundWithAccuracy_of_rounds hb _ _ _ (by simpa using hv)
  · -- shifted up, the mantissa and exponent still denote `m` exactly
    simp only [Places, Nat.shiftLeft_eq, Nat.cast_mul, Nat.cast_pow, Nat.cast_ofNat]
    rw [zpow_sub₀ two_ne_zero, zpow_natCast]
    field_simp
  · simp only [targetExponent_eq, log2_shiftLeft hm]
    omega

namespace Binary

variable {b : Binary} {v : ℚ}

/-- Every value that rounds to a finite double is below `2 ^ 1024`. -/
theorem Rounds.lt_two_pow (hb : b.Canonical) (hv : b.Rounds v) : v < 2 ^ (1024 : ℤ) := by
  have hq : (2 : ℚ) ^ b.exponent ≤ 2 ^ (971 : ℤ) := zpow_le_zpow_right₀ one_le_two hb.most
  have hm : ((b.mantissa + 1 : Nat) : ℚ) ≤ 2 ^ 53 := by exact_mod_cast hb.lt
  have hq0 : (0 : ℚ) < 2 ^ b.exponent := zpow_pos two_pos _
  have hup := hv.bounds.2
  unfold upper at hup
  push_cast at hm
  calc v ≤ (b.mantissa + 1 / 2) * 2 ^ b.exponent := hup
    _ < 2 ^ 53 * 2 ^ b.exponent := mul_lt_mul_of_pos_right (by linarith) hq0
    _ ≤ 2 ^ 53 * 2 ^ (971 : ℤ) := mul_le_mul_of_nonneg_left hq (by positivity)
    _ = 2 ^ (1024 : ℤ) := by
      rw [← zpow_natCast, ← zpow_add₀ two_ne_zero]
      norm_num

/-- Every value that rounds to a finite nonzero double is above `2 ^ (-1076)`. -/
theorem Rounds.two_pow_lt (hb : b.Canonical) (hv : b.Rounds v) : 2 ^ (-1076 : ℤ) < v := by
  have hq : (2 : ℚ) ^ (-1074 : ℤ) ≤ 2 ^ b.exponent := zpow_le_zpow_right₀ one_le_two hb.least
  have hm : (1 : ℚ) ≤ b.mantissa := by exact_mod_cast hb.pos
  have hlow := hv.bounds.1
  unfold lower at hlow
  have hgap : (b.mantissa : ℚ) - 1 / 2 ≤ b.mantissa - if b.lowerGap then 1 / 4 else 1 / 2 := by
    split <;> linarith
  have hq0 : (0 : ℚ) < 2 ^ b.exponent := zpow_pos two_pos _
  have hhalf : (1 : ℚ) / 2 * 2 ^ (-1074 : ℤ) = 2 ^ (-1075 : ℤ) := by
    rw [show (-1074 : ℤ) = -1075 + 1 by norm_num, zpow_add_one₀ two_ne_zero]
    ring
  calc (2 : ℚ) ^ (-1076 : ℤ) < 2 ^ (-1075 : ℤ) := zpow_lt_zpow_right₀ one_lt_two (by norm_num)
    _ = 1 / 2 * 2 ^ (-1074 : ℤ) := hhalf.symm
    _ ≤ ((b.mantissa : ℚ) - 1 / 2) * 2 ^ b.exponent :=
      mul_le_mul (by linarith) hq (by positivity) (by linarith)
    _ ≤ _ := mul_le_mul_of_nonneg_right hgap hq0.le
    _ ≤ v := hlow

end Binary

/-- Reading `m · 10 ^ e` in the model gives the double the value rounds to. -/
theorem ofScientific_of_rounds {b : Binary} (hb : b.Canonical) {m : Nat} {e : ℤ}
    (hv : b.Rounds (m * 10 ^ e)) :
    UnpackedFloat.ofScientific .binary64 m e = .finite .positive b.mantissa b.exponent hb.pos := by
  have hlo := hv.two_pow_lt hb
  have hhi := hv.lt_two_pow hb
  have hm : 0 < m := by
    rcases Nat.eq_zero_or_pos m with rfl | h
    · simp only [Nat.cast_zero, zero_mul] at hlo
      exact absurd hlo (not_lt.mpr (zpow_pos two_pos _).le)
    · exact h
  have hmq : (1 : ℚ) ≤ m := by exact_mod_cast hm
  have h10e : (0 : ℚ) < 10 ^ e := zpow_pos (by norm_num) e
  -- the value is neither too large nor too small for the exponent guards to fire
  have hbig : ¬ e > 2 ^ 11 := by
    intro he
    have h10 : (10 : ℚ) ^ (2049 : ℤ) ≤ 10 ^ e := zpow_le_zpow_right₀ (by norm_num) (by omega)
    have h2 : (2 : ℚ) ^ (1024 : ℤ) ≤ 10 ^ (2049 : ℤ) := by
      rw [show (1024 : ℤ) = ((1024 : ℕ) : ℤ) from rfl, show (2049 : ℤ) = ((2049 : ℕ) : ℤ) from rfl,
        zpow_natCast, zpow_natCast]
      calc (2 : ℚ) ^ 1024 ≤ 10 ^ 1024 := pow_le_pow_left₀ (by norm_num) (by norm_num) _
        _ ≤ 10 ^ 2049 := pow_le_pow_right₀ (by norm_num) (by norm_num)
    have : (10 : ℚ) ^ e ≤ m * 10 ^ e := le_mul_of_one_le_left h10e.le hmq
    exact absurd hhi (not_lt.mpr (h2.trans (h10.trans this)))
  have hsmall : ¬ e < -((2 ^ 11 : ℤ) + m.log2) := by
    intro he
    have hm2 : (m : ℚ) < 2 ^ (m.log2 + 1) := by exact_mod_cast Nat.lt_log2_self
    have h210 : (2 : ℚ) ^ (m.log2 + 1) ≤ 10 ^ (m.log2 + 1) :=
      pow_le_pow_left₀ (by norm_num) (by norm_num) _
    have hsum : (10 : ℚ) ^ (m.log2 + 1) * 10 ^ e ≤ 10 ^ (-2048 : ℤ) := by
      rw [← zpow_natCast, ← zpow_add₀ (by norm_num)]
      exact zpow_le_zpow_right₀ (by norm_num) (by push_cast; omega)
    have htiny : (10 : ℚ) ^ (-2048 : ℤ) < 2 ^ (-1076 : ℤ) := by
      rw [zpow_neg, zpow_neg, inv_lt_inv₀ (by positivity) (by positivity),
        show (1076 : ℤ) = ((1076 : ℕ) : ℤ) from rfl, show (2048 : ℤ) = ((2048 : ℕ) : ℤ) from rfl,
        zpow_natCast, zpow_natCast]
      calc (2 : ℚ) ^ 1076 < 10 ^ 1076 := pow_lt_pow_left₀ (by norm_num) (by norm_num) (by norm_num)
        _ ≤ 10 ^ 2048 := pow_le_pow_right₀ (by norm_num) (by norm_num)
    have : (m : ℚ) * 10 ^ e < 10 ^ (m.log2 + 1) * 10 ^ e :=
      mul_lt_mul_of_pos_right (lt_of_lt_of_le hm2 h210) h10e
    linarith
  unfold UnpackedFloat.ofScientific
  rw [dif_neg hm.ne', if_neg hbig, if_neg hsmall]
  split
  · -- a nonnegative exponent: `m`, widened to 53 bits, times `10 ^ e`
    rename_i he
    apply mul_of_rounds hb
    · rw [Nat.shiftLeft_eq]
      have : 1 ≤ 10 ^ e.toNat := Nat.one_le_pow _ _ (by norm_num)
      have : 2 ^ 52 ≤ m * 2 ^ Format.binary64.mantissaBits := by
        simp only [Format.mantissaBits]
        omega
      nlinarith
    · convert hv using 1
      rw [Nat.shiftLeft_eq]
      push_cast
      rw [← zpow_natCast, ← zpow_natCast, show ((e.toNat : ℕ) : ℤ) = e by omega]
      field_simp
      rw [← zpow_add₀ two_ne_zero, add_neg_cancel, zpow_zero]
  · -- a negative exponent: `m` divided by `10 ^ (-e)`
    rename_i he
    apply div_of_rounds hb
    convert hv using 1
    push_cast
    rw [← zpow_natCast, show (((-e).toNat : ℕ) : ℤ) = -e by omega, zpow_neg]
    field_simp

/-! ## The reader of decimals -/

/-- The powers of ten that the fast path of the reader divides or multiplies by are the model's
`10 ^ n`. -/
theorem powerOfTen_toModel (n : Nat) (hn : n ≤ 22) :
    (getElem Float.exactlyRepresentablePowersOfTen n (by simp [Float.exactlyRepresentablePowersOfTen]; omega)).toModel =
      Float.Model.ofNat (10 ^ n) := by
  interval_cases n <;> decide +kernel +revert

theorem five_pow_lt {n : Nat} (hn : n ≤ 22) : 5 ^ n < 2 ^ 53 :=
  lt_of_le_of_lt (Nat.pow_le_pow_right (by norm_num) hn) (by norm_num)

theorem ofParts_zero_canonical {m : Nat} (hm : 0 < m) (hm' : m < 2 ^ 53) :
    (Binary.ofParts m 0).Canonical := by
  have : m.log2 < 53 := (Nat.log2_lt hm.ne').mpr hm'
  exact Binary.ofParts_canonical hm hm' (by omega) (by omega)

theorem ofParts_powerOfTen_canonical {n : Nat} (hn : n ≤ 22) : (Binary.ofParts (5 ^ n) n).Canonical := by
  have : (5 ^ n).log2 < 53 := (Nat.log2_lt (by positivity)).mpr (five_pow_lt hn)
  exact Binary.ofParts_canonical (by positivity) (five_pow_lt hn) (by omega) (by omega)

/-- A natural number below `2 ^ 53` is exact as a double. -/
theorem unpack_toFloat {m : Nat} (hm : 0 < m) (hm' : m < 2 ^ 53) :
    m.toUInt64.toFloat.toModel.unpack = .finite .positive (Binary.ofParts m 0).mantissa
      (Binary.ofParts m 0).exponent (ofParts_zero_canonical hm hm').pos := by
  have hb := ofParts_zero_canonical hm hm'
  have htoNat : m.toUInt64.toNat = m := by
    rw [Nat.toUInt64, UInt64.toNat_ofNat']
    exact Nat.mod_eq_of_lt (by omega)
  have hv : (Binary.ofParts m 0).Rounds m := by
    have := Binary.rounds_value (Binary.ofParts m 0)
    rwa [Binary.ofParts_value hm', zpow_zero, mul_one] at this
  change (Float.Model.pack (UnpackedFloat.ofNat .binary64 m.toUInt64.toNat)).unpack = _
  rw [htoNat, ofNat_of_rounds hb hm hv]
  exact unpack_pack_finite hb false

/-- A power of ten up to `10 ^ 22` is exact as a double. -/
theorem unpack_powerOfTen {n : Nat} (hn : n ≤ 22) :
    (getElem Float.exactlyRepresentablePowersOfTen n (by simp [Float.exactlyRepresentablePowersOfTen]; omega)).toModel.unpack =
      .finite .positive (Binary.ofParts (5 ^ n) n).mantissa (Binary.ofParts (5 ^ n) n).exponent
        (ofParts_powerOfTen_canonical hn).pos := by
  have hb := ofParts_powerOfTen_canonical hn
  have hv : (Binary.ofParts (5 ^ n) n).Rounds ((10 ^ n : Nat) : ℚ) := by
    have := Binary.rounds_value (Binary.ofParts (5 ^ n) n)
    rw [Binary.ofParts_value (five_pow_lt hn)] at this
    convert this using 1
    push_cast
    rw [zpow_natCast, ← mul_pow]
    norm_num
  rw [powerOfTen_toModel n hn]
  change (Float.Model.pack (UnpackedFloat.ofNat .binary64 (10 ^ n))).unpack = _
  rw [ofNat_of_rounds hb (by positivity) hv]
  exact unpack_pack_finite hb false

/-- Lean's reader of decimals, `Float.ofScientific`, gives the double that the decimal's value
rounds to: on its fast path, which divides or multiplies two exact doubles, as on the path
through the model. -/
theorem ofScientific_eq_of_rounds {b : Binary} (hb : b.Canonical) {m : Nat} {s : Bool} {n : Nat}
    (hv : b.Rounds (m * 10 ^ (if s then -(n : ℤ) else n))) :
    Float.ofScientific m s n =
      Float.ofModel (Float.Model.pack (.finite .positive b.mantissa b.exponent hb.pos)) := by
  have hm : 0 < m := by
    rcases Nat.eq_zero_or_pos m with rfl | h
    · have := hv.two_pow_lt hb
      simp only [Nat.cast_zero, zero_mul] at this
      exact absurd this (not_lt.mpr (zpow_pos two_pos _).le)
    · exact h
  unfold Float.ofScientific
  split
  · -- the fast path: `m` and `10 ^ n` are exact doubles
    rename_i hfast
    have ha := unpack_toFloat hm hfast.1
    have hp := unpack_powerOfTen hfast.2
    have hbm := ofParts_zero_canonical hm hfast.1
    have hbp := ofParts_powerOfTen_canonical hfast.2
    have hvm := Binary.ofParts_value (j := 0) hfast.1
    have hvp := Binary.ofParts_value (j := n) (five_pow_lt hfast.2)
    have hten : ((5 ^ n : Nat) : ℚ) * 2 ^ (n : ℤ) = 10 ^ n := by
      push_cast
      rw [zpow_natCast, ← mul_pow]
      norm_num
    split
    · -- dividing by `10 ^ n`
      rename_i hs
      change Float.ofModel (Float.Model.pack (UnpackedFloat.div .binary64 _ _)) = _
      rw [ha, hp, div_of_rounds hb _ _ ?_]
      · rfl
      · rw [hvm, hvp, hten, zpow_zero, mul_one]
        simpa [hs, zpow_neg, div_eq_mul_inv] using hv
    · -- multiplying by `10 ^ n`
      rename_i hs
      change Float.ofModel (Float.Model.pack (UnpackedFloat.mul .binary64 _ _)) = _
      rw [ha, hp, mul_of_rounds hb _ _ ?_ ?_]
      · rfl
      · exact le_trans (hbm.normal.resolve_right (by simp [Binary.ofParts]; omega))
          (Nat.le_mul_of_pos_right _ hbp.pos)
      · rw [hvm, hvp, hten, zpow_zero, mul_one]
        simpa [hs] using hv
  · -- the path through the model
    have he : (if s then Int.negOfNat n else Int.ofNat n) = if s then -(n : ℤ) else n := by
      split <;> rfl
    change Float.ofModel (Float.Model.pack (UnpackedFloat.ofScientific .binary64 m _)) = _
    rw [he, ofScientific_of_rounds hb hv]

/-! ## Reading a decimal with a sign -/

theorem digitCount_eq (n : Nat) : digitCount n = (Nat.toDigits 10 n).length := by
  simp only [digitCount, Nat.toString_eq_repr]
  rw [← Nat.toList_repr, String.length_toList]

/-- A positive number has `digitCount n` digits: it lies from `10 ^ (digitCount n - 1)` up to
below `10 ^ digitCount n`. -/
theorem digitCount_bounds {n : Nat} (hn : 0 < n) :
    0 < digitCount n ∧ 10 ^ (digitCount n - 1) ≤ n ∧ n < 10 ^ digitCount n := by
  have hpos : 0 < digitCount n := by rw [digitCount_eq]; exact Nat.length_toDigits_pos
  refine ⟨hpos, ?_, (Nat.length_toDigits_le_iff (by norm_num) hpos).mp (digitCount_eq n).ge⟩
  by_cases h1 : digitCount n = 1
  · rw [h1]
    simp only [Nat.sub_self, pow_zero]
    exact hn
  · -- with fewer digits the number would be below `10 ^ (digitCount n - 1)`
    by_contra hlt
    have hshort : (Nat.toDigits 10 n).length ≤ digitCount n - 1 :=
      (Nat.length_toDigits_le_iff (by norm_num) (by omega)).mpr (Nat.lt_of_not_le hlt)
    rw [← digitCount_eq] at hshort
    omega

theorem neg_ofModel_pack {b : Binary} (hb : b.Canonical) (neg : Bool) :
    -Float.ofModel (Float.Model.pack (.finite (signOf neg) b.mantissa b.exponent hb.pos)) =
      Float.ofModel (Float.Model.pack (.finite (signOf !neg) b.mantissa b.exponent hb.pos)) := by
  change Float.ofModel (Float.Model.pack (Float.Model.pack _).unpack.neg) = _
  rw [unpack_pack_finite hb neg]
  cases neg <;> rfl

/-- `scientific` reads a decimal with a sign as the double that the decimal's value rounds to,
with that sign. -/
theorem scientific_of_rounds {b : Binary} (hb : b.Canonical) (neg : Bool) {m : Nat} {e : ℤ}
    (hv : b.Rounds (m * 10 ^ e)) :
    scientific neg m e =
      Float.ofModel (Float.Model.pack (.finite (signOf neg) b.mantissa b.exponent hb.pos)) := by
  have hlo := hv.two_pow_lt hb
  have hhi := hv.lt_two_pow hb
  have hm : 0 < m := by
    rcases Nat.eq_zero_or_pos m with rfl | h
    · simp only [Nat.cast_zero, zero_mul] at hlo
      exact absurd hlo (not_lt.mpr (zpow_pos two_pos _).le)
    · exact h
  obtain ⟨hdpos, hdlo, hdhi⟩ := digitCount_bounds hm
  have h10e : (0 : ℚ) < 10 ^ e := zpow_pos (by norm_num) e
  -- the value's decimal size stays within the range the reader expands
  have htop : ¬ e + (digitCount m : ℤ) > 311 := by
    intro htop
    have hd : ((10 ^ (digitCount m - 1) : Nat) : ℚ) ≤ m := by exact_mod_cast hdlo
    have hsize : (10 : ℚ) ^ (311 : ℤ) ≤ 10 ^ (digitCount m - 1) * 10 ^ e := by
      rw [← zpow_natCast, ← zpow_add₀ (by norm_num)]
      exact zpow_le_zpow_right₀ (by norm_num) (by omega)
    have h2 : (2 : ℚ) ^ (1024 : ℤ) ≤ 10 ^ (311 : ℤ) := by
      rw [show (1024 : ℤ) = ((1024 : ℕ) : ℤ) from rfl, show (311 : ℤ) = ((311 : ℕ) : ℤ) from rfl,
        zpow_natCast, zpow_natCast]
      exact_mod_cast (show 2 ^ 1024 ≤ 10 ^ 311 by decide +kernel)
    push_cast at hd
    have : (10 : ℚ) ^ (digitCount m - 1) * 10 ^ e ≤ m * 10 ^ e :=
      mul_le_mul_of_nonneg_right hd h10e.le
    exact absurd hhi (not_lt.mpr (h2.trans (hsize.trans this)))
  have hbottom : ¬ e + (digitCount m : ℤ) < -330 := by
    intro hbot
    have hd : (m : ℚ) < ((10 ^ digitCount m : Nat) : ℚ) := by exact_mod_cast hdhi
    have hsize : (10 : ℚ) ^ digitCount m * 10 ^ e ≤ 10 ^ (-331 : ℤ) := by
      rw [← zpow_natCast, ← zpow_add₀ (by norm_num)]
      exact zpow_le_zpow_right₀ (by norm_num) (by omega)
    have htiny : (10 : ℚ) ^ (-331 : ℤ) < 2 ^ (-1076 : ℤ) := by
      rw [zpow_neg, zpow_neg, inv_lt_inv₀ (by positivity) (by positivity),
        show (1076 : ℤ) = ((1076 : ℕ) : ℤ) from rfl, show (331 : ℤ) = ((331 : ℕ) : ℤ) from rfl,
        zpow_natCast, zpow_natCast]
      exact_mod_cast (show 2 ^ 1076 < 10 ^ 331 by decide +kernel)
    push_cast at hd
    have : (m : ℚ) * 10 ^ e < 10 ^ digitCount m * 10 ^ e := mul_lt_mul_of_pos_right hd h10e
    exact absurd hlo (not_lt.mpr (this.trans_le hsize |>.trans htiny).le)
  have hmag : (if m == 0 then (0 : Float)
      else if e + (digitCount m : ℤ) > 311 then Float.ofScientific 1 false 400
      else if e + (digitCount m : ℤ) < -330 then 0
      else if e ≥ 0 then Float.ofScientific m false e.toNat
      else Float.ofScientific m true e.natAbs) =
      Float.ofModel (Float.Model.pack (.finite .positive b.mantissa b.exponent hb.pos)) := by
    rw [if_neg (by simpa using hm.ne'), if_neg htop, if_neg hbottom]
    split
    · rename_i he
      apply ofScientific_eq_of_rounds hb
      have he' : (if false = true then -((e.toNat : ℕ) : ℤ) else ((e.toNat : ℕ) : ℤ)) = e := by
        rw [if_neg (by decide)]
        omega
      rw [he']
      exact hv
    · rename_i he
      apply ofScientific_eq_of_rounds hb
      have he' : (if true = true then -((e.natAbs : ℕ) : ℤ) else ((e.natAbs : ℕ) : ℤ)) = e := by
        rw [if_pos rfl]
        omega
      rw [he']
      exact hv
  unfold scientific
  dsimp only
  rw [hmag]
  cases neg
  · rfl
  · exact neg_ofModel_pack hb false

end TurnRelay.Decimal
