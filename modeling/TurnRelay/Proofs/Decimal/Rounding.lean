import Mathlib
import TurnRelay.Decimal.Shortest

/-!
# Rounding in the floating-point model

The model of doubles rounds an exact result in two steps. It shifts the mantissa to the exponent
that the result's size calls for, keeping in an `Accuracy` where the dropped digits put the value
(`Places`). It then rounds the mantissa to the nearest integer, ties to even, carrying into the
next exponent when the mantissa overflows.

`roundWithAccuracy_of_rounds` says what comes out: the double `b` whenever the exact value lies in
`b`'s rounding interval (`Binary.Rounds`), which holds the values strictly between the halfway
points to `b`'s neighbours, and the halfway points themselves when `b`'s mantissa is even.
-/

namespace TurnRelay.Decimal

open Float.Model Float.Model.UnpackedFloat

/-- Where a value `r`, counted in units of the last place kept, lies against the mantissa `m`
when the digits dropped after it read as `acc`. -/
def Places : Accuracy → Nat → ℚ → Prop
  | .exact, m, r => r = m
  | .inexact .lt, m, r => m < r ∧ r < m + 1 / 2
  | .inexact .eq, m, r => r = m + 1 / 2
  | .inexact .gt, m, r => m + 1 / 2 < r ∧ r < m + 1

theorem Places.bounds {acc : Accuracy} {m : Nat} {r : ℚ} (h : Places acc m r) :
    (m : ℚ) ≤ r ∧ r < m + 1 := by
  rcases acc with _ | (_ | _ | _) <;> simp only [Places] at h
  · constructor <;> linarith
  · constructor <;> linarith [h.1, h.2]
  · constructor <;> linarith
  · constructor <;> linarith [h.1, h.2]

theorem accuracy_ofMantissaAndAccuracy (m : Nat) (acc : Accuracy) :
    (ExtendedMantissa.ofMantissaAndAccuracy m acc).accuracy = acc ∧
      (ExtendedMantissa.ofMantissaAndAccuracy m acc).mantissa = m := by
  rcases acc with _ | (_ | _ | _) <;> exact ⟨rfl, rfl⟩

theorem places_shiftRightOne {em : ExtendedMantissa} {r : ℚ}
    (h : Places em.accuracy em.mantissa r) :
    Places em.shiftRightOne.accuracy em.shiftRightOne.mantissa (r / 2) := by
  rcases em with ⟨m, rb, sb⟩
  obtain ⟨a, rfl | rfl⟩ := Nat.even_or_odd' m
  · -- an even mantissa drops a 0: the half below `a + 1/2`
    have hm : 2 * a / 2 = a := by omega
    have hr : (2 * a % 2 != 0) = false := by simp
    cases rb <;> cases sb <;>
      simp only [ExtendedMantissa.shiftRightOne, ExtendedMantissa.accuracy, Places, hm, hr,
        Bool.or_false, Bool.or_true] at h ⊢ <;> push_cast at h ⊢
    all_goals first | linarith | constructor <;> linarith
  · -- an odd mantissa drops a 1: the half from `a + 1/2` on
    have hm : (2 * a + 1) / 2 = a := by omega
    have hr : ((2 * a + 1) % 2 != 0) = true := by simp [Nat.add_mod]
    cases rb <;> cases sb <;>
      simp only [ExtendedMantissa.shiftRightOne, ExtendedMantissa.accuracy, Places, hm, hr,
        Bool.or_false, Bool.or_true] at h ⊢ <;> push_cast at h ⊢
    all_goals first | linarith | constructor <;> linarith

theorem places_shiftRight {em : ExtendedMantissa} {r : ℚ}
    (h : Places em.accuracy em.mantissa r) (n : Nat) :
    Places (em >>> n).accuracy (em >>> n).mantissa (r / 2 ^ n) := by
  induction n with
  | zero => simpa [HShiftRight.hShiftRight, Nat.repeat] using h
  | succ n ih =>
    have hstep := places_shiftRightOne ih
    rw [div_div, ← pow_succ] at hstep
    exact hstep

/-! ## Rounding to the nearest, ties to even -/

/-- `n` is the integer nearest to `r`, the even one when `r` lies halfway between two. -/
def NearestEven (r : ℚ) (n : Nat) : Prop :=
  ((n : ℚ) - 1 / 2 < r ∧ r < n + 1 / 2) ∨ (Even n ∧ (r = n - 1 / 2 ∨ r = n + 1 / 2))

/-- At most one integer is nearest to a value, ties going to the even one. -/
theorem NearestEven.unique {r : ℚ} {n n' : Nat} (h : NearestEven r n) (h' : NearestEven r n') :
    n = n' := by
  rcases h with ⟨h1, h2⟩ | ⟨he, h1 | h1⟩ <;> rcases h' with ⟨h1', h2'⟩ | ⟨he', h1' | h1'⟩
  · -- both within a half: less than one apart
    have a : n < n' + 1 := by exact_mod_cast (show (n : ℚ) < n' + 1 by linarith)
    have b : n' < n + 1 := by exact_mod_cast (show (n' : ℚ) < n + 1 by linarith)
    omega
  · have a : n < n' := by exact_mod_cast (show (n : ℚ) < n' by linarith)
    have b : n' < n + 1 := by exact_mod_cast (show (n' : ℚ) < n + 1 by linarith)
    omega
  · have a : n' < n := by exact_mod_cast (show (n' : ℚ) < n by linarith)
    have b : n < n' + 1 := by exact_mod_cast (show (n : ℚ) < n' + 1 by linarith)
    omega
  · have a : n' < n := by exact_mod_cast (show (n' : ℚ) < n by linarith)
    have b : n < n' + 1 := by exact_mod_cast (show (n : ℚ) < n' + 1 by linarith)
    omega
  · exact_mod_cast (show (n : ℚ) = n' by linarith)
  · -- halfway points of two neighbours: one of them is odd
    have a : n = n' + 1 := by exact_mod_cast (show (n : ℚ) = n' + 1 by linarith)
    subst a
    exact absurd he (by simpa [Nat.even_add_one] using he')
  · have a : n < n' := by exact_mod_cast (show (n : ℚ) < n' by linarith)
    have b : n' < n + 1 := by exact_mod_cast (show (n' : ℚ) < n + 1 by linarith)
    omega
  · have a : n' = n + 1 := by exact_mod_cast (show (n' : ℚ) = n + 1 by linarith)
    subst a
    exact absurd he' (by simpa [Nat.even_add_one] using he)
  · exact_mod_cast (show (n : ℚ) = n' by linarith)

/-- The rounding of the model finds the nearest integer, ties going to the even one. -/
theorem nearestEven_roundToNearestEven {acc : Accuracy} {m : Nat} {r : ℚ} (h : Places acc m r) :
    NearestEven r (acc.roundToNearestEven m) := by
  rcases acc with _ | (_ | _ | _) <;> simp only [Places] at h <;>
    simp only [Accuracy.roundToNearestEven, NearestEven]
  · exact .inl ⟨by linarith, by linarith⟩
  · exact .inl ⟨by linarith, by linarith⟩
  · -- halfway: the even one of `m` and `m + 1`
    rcases Nat.even_or_odd m with he | ho
    · rw [Nat.even_iff.mp he, Nat.add_zero]
      exact .inr ⟨he, .inr h⟩
    · rw [Nat.odd_iff.mp ho]
      refine .inr ⟨ho.add_one, .inl ?_⟩
      push_cast
      linarith
  · push_cast
    exact .inl ⟨by linarith, by linarith⟩

theorem roundToNearestEven_eq {acc : Accuracy} {m n : Nat} {r : ℚ} (h : Places acc m r)
    (hn : NearestEven r n) : acc.roundToNearestEven m = n :=
  (nearestEven_roundToNearestEven h).unique hn

/-! ## Shifting to the exponent of the result -/

theorem shiftToExponent_places {M : Nat} {E T : ℤ} {acc : Accuracy} {v : ℚ}
    (h : Places acc M (v / 2 ^ E)) (hET : E ≤ T) :
    (shiftToExponent M E acc T).2 = T ∧
      Places (shiftToExponent M E acc T).1.accuracy (shiftToExponent M E acc T).1.mantissa
        (v / 2 ^ T) := by
  obtain ⟨ha, hm⟩ := accuracy_ofMantissaAndAccuracy M acc
  have hshift := places_shiftRight (r := v / 2 ^ E) (by rw [ha, hm]; exact h) (T - E).toNat
  have hsum : E + ((T - E).toNat : ℤ) = T := by omega
  refine ⟨hsum, ?_⟩
  rw [div_div, ← zpow_natCast, ← zpow_add₀ two_ne_zero, hsum] at hshift
  exact hshift

theorem targetExponent_eq (M : Nat) (E : ℤ) :
    Format.binary64.targetExponent (totalExponent M E) = max ((M.log2 : ℤ) + E - 52) (-1074) := by
  simp only [Format.targetExponent, totalExponent, Format.mantissaBits, Format.minExponent]
  norm_num
  omega

/-- The value lies below the power of two where the next exponent starts. -/
theorem lt_two_pow_of_places {acc : Accuracy} {M : Nat} {E : ℤ} {v : ℚ}
    (h : Places acc M (v / 2 ^ E)) :
    v < 2 ^ (Format.binary64.targetExponent (totalExponent M E) + 53) := by
  have hE : (0 : ℚ) < 2 ^ E := zpow_pos two_pos E
  have hM : ((M + 1 : Nat) : ℚ) ≤ 2 ^ (M.log2 + 1) := by exact_mod_cast Nat.lt_log2_self
  have hlt : v < 2 ^ ((M.log2 : ℤ) + 1 + E) := by
    rw [zpow_add₀ two_ne_zero, ← Nat.cast_one, ← Nat.cast_add, zpow_natCast]
    have := (div_lt_iff₀ hE).mp h.bounds.2
    push_cast at hM
    nlinarith
  calc v < 2 ^ ((M.log2 : ℤ) + 1 + E) := hlt
    _ ≤ _ := by
      apply zpow_le_zpow_right₀ one_le_two
      rw [targetExponent_eq]
      omega

/-- Above the least exponent, the value reaches the power of two where its exponent starts. -/
theorem two_pow_le_of_places {acc : Accuracy} {M : Nat} {E : ℤ} {v : ℚ}
    (h : Places acc M (v / 2 ^ E))
    (hE : E ≤ Format.binary64.targetExponent (totalExponent M E)) :
    Format.binary64.targetExponent (totalExponent M E) = -1074 ∨
      2 ^ (Format.binary64.targetExponent (totalExponent M E) + 52) ≤ v := by
  rw [targetExponent_eq] at hE ⊢
  rcases Nat.eq_zero_or_pos M with rfl | hM
  · -- no mantissa: the exponent was already the least one
    left
    simp only [Nat.log2_zero, Nat.cast_zero, zero_add] at hE ⊢
    omega
  · by_cases hleast : (M.log2 : ℤ) + E - 52 ≤ -1074
    · exact .inl (max_eq_right hleast)
    · right
      rw [max_eq_left (by omega), show (M.log2 : ℤ) + E - 52 + 52 = (M.log2 : ℕ) + E by ring,
        zpow_add₀ two_ne_zero, zpow_natCast]
      have hpow : ((2 ^ M.log2 : Nat) : ℚ) ≤ M := by exact_mod_cast Nat.log2_self_le hM.ne'
      have := (le_div_iff₀ (zpow_pos two_pos E)).mp h.bounds.1
      push_cast at hpow
      nlinarith [zpow_pos (two_pos (α := ℚ)) E]

theorem shiftToTargetExponent_small {R : Nat} {T : ℤ} (hR : R < 2 ^ 53) (hT : -1074 ≤ T) :
    shiftToTargetExponent .binary64 R T .exact = (⟨R, false, false⟩, T) := by
  have hk : R.log2 ≤ 52 := by
    rcases Nat.eq_zero_or_pos R with rfl | hpos
    · simp
    · have := (Nat.log2_lt hpos.ne').mpr hR
      omega
  have hs : (Format.binary64.targetExponent (totalExponent R T) - T).toNat = 0 := by
    rw [targetExponent_eq]
    omega
  simp only [shiftToTargetExponent, shiftToExponent, hs]
  simp [HShiftRight.hShiftRight, Nat.repeat, ExtendedMantissa.ofMantissaAndAccuracy]

theorem shiftToTargetExponent_carry {T : ℤ} (hT : -1074 ≤ T) :
    shiftToTargetExponent .binary64 (2 ^ 53) T .exact = (⟨2 ^ 52, false, false⟩, T + 1) := by
  have hs : (Format.binary64.targetExponent (totalExponent (2 ^ 53) T) - T).toNat = 1 := by
    rw [targetExponent_eq, Nat.log2_two_pow]
    omega
  simp only [shiftToTargetExponent, shiftToExponent, hs]
  simp [HShiftRight.hShiftRight, Nat.repeat, ExtendedMantissa.ofMantissaAndAccuracy,
    ExtendedMantissa.shiftRightOne]

/-! ## The doubles a value rounds to -/

/-- The form `Binary.ofFloat` gives a finite nonzero double: a mantissa below `2 ^ 53`, at least
`2 ^ 52` unless the exponent is the least one, an exponent that fits, and a lower gap exactly at
a power of two above the least normal exponent. -/
structure Binary.Canonical (b : Binary) : Prop where
  pos : 0 < b.mantissa
  lt : b.mantissa < 2 ^ 53
  least : -1074 ≤ b.exponent
  most : b.exponent ≤ 971
  normal : 2 ^ 52 ≤ b.mantissa ∨ b.exponent = -1074
  gap : b.lowerGap = true ↔ b.mantissa = 2 ^ 52 ∧ -1074 < b.exponent

/-- Halfway down to the next smaller double, which below a power of two is half as far. -/
def Binary.lower (b : Binary) : ℚ :=
  (b.mantissa - if b.lowerGap then 1 / 4 else 1 / 2) * 2 ^ b.exponent

/-- Halfway up to the next larger double. -/
def Binary.upper (b : Binary) : ℚ := (b.mantissa + 1 / 2) * 2 ^ b.exponent

/-- The values that round to `b`: strictly between the two halfway points, and the halfway points
themselves when the mantissa is even. -/
def Binary.Rounds (b : Binary) (v : ℚ) : Prop :=
  (b.lower < v ∧ v < b.upper) ∨ (Even b.mantissa ∧ (v = b.lower ∨ v = b.upper))

namespace Binary

variable {b : Binary} {v : ℚ}

theorem Rounds.bounds (h : b.Rounds v) : b.lower ≤ v ∧ v ≤ b.upper := by
  rcases h with ⟨h1, h2⟩ | ⟨-, h | h⟩
  · exact ⟨h1.le, h2.le⟩
  · refine ⟨h.ge, h ▸ ?_⟩
    unfold lower upper
    have := zpow_pos (two_pos (α := ℚ)) b.exponent
    split <;> nlinarith
  · refine ⟨h ▸ ?_, h.le⟩
    unfold lower upper
    have := zpow_pos (two_pos (α := ℚ)) b.exponent
    split <;> nlinarith

/-- At its own exponent, a value that rounds to `b` has `b`'s mantissa as nearest integer. -/
theorem Rounds.nearestEven (h : b.Rounds v) : NearestEven (v / 2 ^ b.exponent) b.mantissa := by
  have hq : (0 : ℚ) < 2 ^ b.exponent := zpow_pos two_pos _
  have hlo : b.lower / 2 ^ b.exponent = b.mantissa - if b.lowerGap then 1 / 4 else 1 / 2 := by
    rw [lower, mul_div_assoc, div_self hq.ne', mul_one]
  have hhi : b.upper / 2 ^ b.exponent = b.mantissa + 1 / 2 := by
    rw [upper, mul_div_assoc, div_self hq.ne', mul_one]
  have hgap : (b.mantissa : ℚ) - 1 / 2 ≤ b.mantissa - if b.lowerGap then 1 / 4 else 1 / 2 := by
    split <;> linarith
  rcases h with ⟨h1, h2⟩ | ⟨he, h | h⟩
  · have h1 := div_lt_div_of_pos_right h1 hq
    have h2 := div_lt_div_of_pos_right h2 hq
    rw [hlo] at h1
    rw [hhi] at h2
    exact .inl ⟨by linarith, h2⟩
  · -- on the lower halfway point: a tie unless the gap below is the narrow one
    rw [h, hlo]
    cases hg : b.lowerGap
    · exact .inr ⟨he, .inl (by simp)⟩
    · exact .inl ⟨by simp; linarith, by simp; linarith⟩
  · rw [h, hhi]
    exact .inr ⟨he, .inr rfl⟩

/-- A value that rounds to `b` has its own exponent `b.exponent`, or, just below a power of two,
the exponent one less. `T` is the exponent the value's size gives, bounded as a value placed at
`T` is. -/
theorem Rounds.exponent_cases (hb : b.Canonical) (hv : b.Rounds v) {T : ℤ} (hT : -1074 ≤ T)
    (hhi : v < 2 ^ (T + 53)) (hlo : T = -1074 ∨ 2 ^ (T + 52) ≤ v) :
    T = b.exponent ∨ (T + 1 = b.exponent ∧ b.lowerGap = true) := by
  have hq : (0 : ℚ) < 2 ^ b.exponent := zpow_pos two_pos _
  have hleast := hb.least
  obtain ⟨hvlo, hvhi⟩ := hv.bounds
  have hm : ((b.mantissa : ℚ) + 1 / 2) < 2 ^ 53 := by
    have : ((b.mantissa + 1 : Nat) : ℚ) ≤ 2 ^ 53 := by exact_mod_cast hb.lt
    push_cast at this
    linarith
  -- not above: a value no larger than the next halfway point stays below `2 ^ (q + 53)`
  have habove : T ≤ b.exponent := by
    by_contra hgt
    have h1 := hlo.resolve_left (by omega)
    have h2 : (2 : ℚ) ^ (b.exponent + 53) ≤ 2 ^ (T + 52) :=
      zpow_le_zpow_right₀ one_le_two (by omega)
    rw [zpow_add₀ two_ne_zero] at h2
    norm_num at h2
    unfold upper at hvhi
    nlinarith
  -- not more than one below, and one below only under a power of two with the narrow gap
  by_cases hbelow : T + 1 ≤ b.exponent
  · have hnormal : 2 ^ 52 ≤ b.mantissa := hb.normal.resolve_right (by omega)
    have h2 : (2 : ℚ) ^ (T + 53) ≤ 2 ^ (b.exponent + 52) :=
      zpow_le_zpow_right₀ one_le_two (by omega)
    rw [zpow_add₀ two_ne_zero (b.exponent)] at h2
    norm_num at h2
    have hpow : b.mantissa = 2 ^ 52 := by
      by_contra hne
      have : ((2 ^ 52 + 1 : Nat) : ℚ) ≤ b.mantissa := by exact_mod_cast (by omega)
      push_cast at this
      unfold lower at hvlo
      split at hvlo <;> nlinarith
    have hgap : b.lowerGap = true := hb.gap.mpr ⟨hpow, by omega⟩
    refine .inr ⟨?_, hgap⟩
    by_contra hne
    have h3 : (2 : ℚ) ^ (T + 53) ≤ 2 ^ (b.exponent + 51) :=
      zpow_le_zpow_right₀ one_le_two (by omega)
    rw [zpow_add₀ two_ne_zero (b.exponent)] at h3
    norm_num at h3
    unfold lower at hvlo
    rw [hgap, hpow] at hvlo
    norm_num at hvlo
    nlinarith
  · exact .inl (by omega)

/-- Just below a power of two, one exponent down, a value that rounds to `b` has `2 ^ 53` as
nearest integer: the carry that brings it back to `b`. -/
theorem Rounds.nearestEven_below (hv : b.Rounds v) (hgap : b.lowerGap = true)
    (hpow : b.mantissa = 2 ^ 52) (hlt : v < 2 ^ (b.exponent - 1 + 53)) :
    NearestEven (v / 2 ^ (b.exponent - 1)) (2 ^ 53) := by
  have hq : (0 : ℚ) < 2 ^ (b.exponent - 1) := zpow_pos two_pos _
  have hlo := hv.bounds.1
  unfold lower at hlo
  rw [hgap, hpow, if_pos rfl, show b.exponent = b.exponent - 1 + 1 by ring,
    zpow_add₀ two_ne_zero] at hlo
  rw [zpow_add₀ two_ne_zero] at hlt
  have h1 : (2 : ℚ) ^ 53 - 1 / 2 ≤ v / 2 ^ (b.exponent - 1) := by
    rw [le_div_iff₀ hq]
    push_cast at hlo
    nlinarith
  have h2 : v / 2 ^ (b.exponent - 1) < 2 ^ 53 := by
    rw [div_lt_iff₀ hq]
    norm_num at hlt ⊢
    linarith
  rcases h1.lt_or_eq with h1 | h1
  · exact .inl ⟨by push_cast; linarith, by push_cast; linarith⟩
  · exact .inr ⟨by decide, .inl (by push_cast; linarith)⟩

end Binary

/-! ## Rounding in the model -/

/-- A value placed at exponent `E` by the mantissa `M` and the digits dropped after it, which
rounds to the double `b`, is rounded by the model to `b`, with the sign it was given. -/
theorem roundWithAccuracy_of_rounds {b : Binary} (hb : b.Canonical) (s : Sign) {M : Nat} {E : ℤ}
    {acc : Accuracy} {v : ℚ} (hplace : Places acc M (v / 2 ^ E))
    (hE : E ≤ Format.binary64.targetExponent (totalExponent M E)) (hv : b.Rounds v) :
    roundWithAccuracy .binary64 s M E acc = .finite s b.mantissa b.exponent hb.pos := by
  have hhi := lt_two_pow_of_places hplace
  have hlo := two_pow_le_of_places hplace hE
  set T := Format.binary64.targetExponent (totalExponent M E) with hT
  obtain ⟨hTeq, hplaceT⟩ := shiftToExponent_places hplace hE
  have hTlo : -1074 ≤ T := by rw [hT, targetExponent_eq]; omega
  have hfirst : shiftToTargetExponent .binary64 M E acc = ((shiftToExponent M E acc T).1, T) :=
    Prod.ext rfl hTeq
  have hround := nearestEven_roundToNearestEven hplaceT
  unfold roundWithAccuracy
  rw [hfirst]
  dsimp only
  rcases hv.exponent_cases hb hTlo hhi hlo with heq | ⟨hbelow, hgap⟩
  · -- rounded at the double's own exponent: the mantissa is `b`'s
    have hn := hv.nearestEven
    rw [← heq] at hn
    have hR : (shiftToExponent M E acc T).1.roundedMantissa = b.mantissa := hround.unique hn
    rw [hR, shiftToTargetExponent_small hb.lt hTlo, heq]
    simp [hb.pos.ne']
  · -- one exponent below, just under a power of two: the mantissa carries over to `2 ^ 53`
    have hpow : b.mantissa = 2 ^ 52 := (hb.gap.mp hgap).1
    have hT1 : T = b.exponent - 1 := by omega
    rw [hT1] at hhi
    have hn := hv.nearestEven_below hgap hpow hhi
    rw [← hT1] at hn
    have hR : (shiftToExponent M E acc T).1.roundedMantissa = 2 ^ 53 := hround.unique hn
    rw [hR, shiftToTargetExponent_carry hTlo]
    simp [hpow, hbelow]

end TurnRelay.Decimal
