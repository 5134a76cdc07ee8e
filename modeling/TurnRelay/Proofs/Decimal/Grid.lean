import TurnRelay.Proofs.Decimal.Reading

/-!
# The shortest digits read back

`shortest b` searches the grids `10 ^ (e - i)` for `i = 0, …, 16` below the leading digit `e` of
`b`, and on each grid tests the two points around `b` with integers scaled by a common factor.
`Scaled` names those integers and `Scaled.pick` the choice between the two points, so that
`gridCandidate` splits into scaling (`Binary.scaled_spec`: the integers are the values times one
positive factor) and choosing (`Scaled.pick_inside`, `Scaled.pick_ne_none`: a point is returned
only when it passes, and one passes whenever the interval is wider than a step).

`Binary.ten_pow_lt_width` says that the seventeenth grid is always fine enough, since
`2 ^ 53 < 10 ^ 16`, so the search never falls through; `shortest_rounds` concludes that the digits
chosen lie in the interval that reads back as `b`.
-/

namespace TurnRelay.Decimal

/-- Both halves of `pow2Parts` and `pow10Parts`: `r ^ e` as a numerator over a denominator. -/
theorem powParts_spec (r : ℕ) (hr : 0 < r) (e : ℤ) :
    let p := if e ≥ 0 then (Nat.pow r e.toNat, 1) else (1, Nat.pow r e.natAbs)
    0 < p.1 ∧ 0 < p.2 ∧ (p.1 : ℚ) = (r : ℚ) ^ e * p.2 := by
  intro p
  have hr' : (r : ℚ) ≠ 0 := by exact_mod_cast hr.ne'
  by_cases he : e ≥ 0
  · obtain ⟨n, rfl⟩ := Int.eq_ofNat_of_zero_le he
    have hp : p = (r ^ n, 1) := if_pos he
    refine ⟨by simp [hp, Nat.pow_pos hr], by simp [hp], ?_⟩
    simp [hp]
  · obtain ⟨n, rfl⟩ := Int.exists_eq_neg_ofNat (by omega : e ≤ 0)
    have hp : p = (1, r ^ n) := by simp only [p, if_neg he, Int.natAbs_neg, Int.natAbs_natCast, Nat.pow_eq]
    refine ⟨by simp [hp], by simp [hp, Nat.pow_pos hr], ?_⟩
    simp [hp, hr']

theorem pow2Parts_spec (e : ℤ) :
    0 < (pow2Parts e).1 ∧ 0 < (pow2Parts e).2 ∧
      ((pow2Parts e).1 : ℚ) = 2 ^ e * (pow2Parts e).2 := by
  exact powParts_spec 2 (by decide) e

theorem pow10Parts_spec (e : ℤ) :
    0 < (pow10Parts e).1 ∧ 0 < (pow10Parts e).2 ∧
      ((pow10Parts e).1 : ℚ) = 10 ^ e * (pow10Parts e).2 := by
  exact powParts_spec 10 (by decide) e


/-- The integers `gridCandidate` compares on one grid: the value, the two ends of the interval
that reads back as it, and the grid step, all scaled by one common factor. -/
structure Scaled where
  x : ℕ
  lo : ℕ
  hi : ℕ
  step : ℕ
  even : Bool

namespace Scaled

/-- Whether a scaled value reads back: inside the interval, or on an end when the mantissa is
even. -/
def inside (s : Scaled) (v : ℕ) : Bool :=
  (s.lo < v || (s.lo == v && s.even)) && (v < s.hi || (v == s.hi && s.even))

/-- The choice between the grid points below and above `x`: of those that pass, the nearer
one, and on a tie the even one. -/
def pick (s : Scaled) : Option ℕ :=
  let c0 := s.x / s.step
  let c1 := c0 + 1
  let ok0 := c0 > 0 && s.inside (c0 * s.step)
  let ok1 := s.inside (c1 * s.step)
  if ok0 && ok1 then
    if s.x - c0 * s.step < c1 * s.step - s.x then some c0
    else if c1 * s.step - s.x < s.x - c0 * s.step then some c1
    else if c0 % 2 == 0 then some c0 else some c1
  else if ok0 then some c0
  else if ok1 then some c1
  else none

end Scaled

/-- The scaled integers of `b` on the grid `10 ^ k`. -/
def Binary.scaled (b : Binary) (k : ℤ) : Scaled :=
  let (a2, b2) := pow2Parts (b.exponent - 2)
  let (a10, b10) := pow10Parts k
  { x := 4 * b.mantissa * (a2 * b10)
    lo := (if b.lowerGap then 4 * b.mantissa - 1 else 4 * b.mantissa - 2) * (a2 * b10)
    hi := (4 * b.mantissa + 2) * (a2 * b10)
    step := a10 * b2
    even := b.mantissa % 2 == 0 }

theorem gridCandidate_eq (b : Binary) (k : ℤ) : gridCandidate b k = (b.scaled k).pick := by
  unfold gridCandidate Binary.scaled
  cases pow2Parts (b.exponent - 2)
  cases pow10Parts k
  rfl

namespace Scaled

variable {s : Scaled}

theorem pick_inside {c : ℕ} (h : s.pick = some c) : s.inside (c * s.step) = true := by
  unfold pick at h
  dsimp only at h
  split_ifs at h with hboth hnear hfar hev hok0 hok1 <;> cases h
  all_goals simp_all

/-- `pick` finds nothing only when neither grid point passes. -/
theorem pick_ne_none_of_ok
    (h : (s.x / s.step > 0 && s.inside (s.x / s.step * s.step)) = true ∨
      s.inside ((s.x / s.step + 1) * s.step) = true) : s.pick ≠ none := by
  unfold pick
  dsimp only
  split_ifs <;> simp_all

/-- When the interval is wider than a grid step and holds `x` strictly inside, one of the two
grid points around `x` lies strictly inside it too. -/
theorem pick_ne_none (hstep : 0 < s.step) (hlo : s.lo < s.x) (hhi : s.x < s.hi)
    (hwide : s.lo + s.step < s.hi) : s.pick ≠ none := by
  apply pick_ne_none_of_ok
  have hbelow := Nat.div_mul_le_self s.x s.step
  have habove := Nat.lt_div_mul_add (a := s.x) hstep
  by_cases hc : s.lo < s.x / s.step * s.step
  · -- the point below `x` is above `lo`
    left
    have hpos : 0 < s.x / s.step := by
      rcases Nat.eq_zero_or_pos (s.x / s.step) with h0 | h0
      · simp [h0] at hc
      · exact h0
    simp [inside, hpos, hc, lt_of_le_of_lt hbelow hhi]
  · -- the point above `x` is within a step of `lo`, so below `hi`
    right
    have hup : (s.x / s.step + 1) * s.step = s.x / s.step * s.step + s.step := Nat.succ_mul _ _
    simp only [inside, hup, Bool.and_eq_true, Bool.or_eq_true, decide_eq_true_eq]
    omega

end Scaled

namespace Binary

variable {b : Binary}

/-- The rounding interval is not empty. -/
theorem lower_lt_upper (b : Binary) : b.lower < b.upper := by
  have hq : (0 : ℚ) < 2 ^ b.exponent := zpow_pos two_pos _
  unfold lower upper
  split <;> nlinarith

/-- The scaled integers of `b` are its value, the ends of its rounding interval and the grid
step `10 ^ k`, all times one positive factor. -/
theorem scaled_spec (hb : b.Canonical) (k : ℤ) : ∃ S : ℚ, 0 < S ∧
    ((b.scaled k).x : ℚ) = b.mantissa * 2 ^ b.exponent * S ∧
    ((b.scaled k).lo : ℚ) = b.lower * S ∧ ((b.scaled k).hi : ℚ) = b.upper * S ∧
    ((b.scaled k).step : ℚ) = 10 ^ k * S ∧ ((b.scaled k).even = true ↔ Even b.mantissa) := by
  obtain ⟨-, hb2, h2⟩ := pow2Parts_spec (b.exponent - 2)
  obtain ⟨-, hb10, h10⟩ := pow10Parts_spec k
  unfold scaled
  generalize pow2Parts (b.exponent - 2) = p2 at hb2 h2 ⊢
  generalize pow10Parts k = p10 at hb10 h10 ⊢
  obtain ⟨a2, b2⟩ := p2
  obtain ⟨a10, b10⟩ := p10
  dsimp only at hb2 h2 hb10 h10 ⊢
  -- the factor is the product of the two denominators
  have hq : (2 : ℚ) ^ (b.exponent - 2) = 2 ^ b.exponent / 4 := by
    rw [zpow_sub₀ two_ne_zero]
    norm_num
  have hm := hb.pos
  refine ⟨b2 * b10, by positivity, ?_, ?_, ?_, ?_, ?_⟩
  · push_cast
    rw [h2, hq]
    ring
  · unfold lower
    cases b.lowerGap
    · rw [if_neg (by decide), if_neg (by decide), Nat.cast_mul, Nat.cast_sub (by omega)]
      push_cast
      rw [h2, hq]
      ring
    · rw [if_pos rfl, if_pos rfl, Nat.cast_mul, Nat.cast_sub (by omega)]
      push_cast
      rw [h2, hq]
      ring
  · unfold upper
    push_cast
    rw [h2, hq]
    ring
  · push_cast
    rw [h10]
    ring
  · simp [Nat.even_iff]

/-- On scaled integers, the test `gridCandidate` makes is `Rounds`. -/
theorem inside_iff {S : ℚ} (hS : 0 < S) {s : Scaled} (hlo : (s.lo : ℚ) = b.lower * S)
    (hhi : (s.hi : ℚ) = b.upper * S) (heven : s.even = true ↔ Even b.mantissa) {v : ℕ} {u : ℚ}
    (hv : (v : ℚ) = u * S) : s.inside v = true ↔ b.Rounds u := by
  have hlt : ∀ {N M : ℕ} {p r : ℚ}, (N : ℚ) = p * S → (M : ℚ) = r * S → (N < M ↔ p < r) := by
    intro N M p r hN hM
    rw [← Nat.cast_lt (α := ℚ), hN, hM]
    exact mul_lt_mul_iff_left₀ hS
  have heq : ∀ {N M : ℕ} {p r : ℚ}, (N : ℚ) = p * S → (M : ℚ) = r * S → (N = M ↔ p = r) := by
    intro N M p r hN hM
    rw [← Nat.cast_inj (R := ℚ), hN, hM]
    exact mul_left_inj' hS.ne'
  have hgap := b.lower_lt_upper
  simp only [Scaled.inside, Bool.and_eq_true, Bool.or_eq_true, decide_eq_true_eq, beq_iff_eq,
    heven, hlt hlo hv, hlt hv hhi, heq hlo hv, heq hv hhi]
  constructor
  · rintro ⟨h1 | ⟨h1, he⟩, h2 | ⟨h2, he'⟩⟩
    · exact .inl ⟨h1, h2⟩
    · exact .inr ⟨he', .inr h2⟩
    · exact .inr ⟨he, .inl h1.symm⟩
    · linarith
  · rintro (⟨h1, h2⟩ | ⟨he, rfl | rfl⟩)
    · exact ⟨.inl h1, .inl h2⟩
    · exact ⟨.inr ⟨rfl, he⟩, .inl hgap⟩
    · exact ⟨.inl hgap, .inr ⟨rfl, he⟩⟩

/-- A grid point `gridCandidate` returns reads back as `b`. -/
theorem gridCandidate_rounds (hb : b.Canonical) {k : ℤ} {c : ℕ} (h : gridCandidate b k = some c) :
    b.Rounds (c * 10 ^ k) := by
  obtain ⟨S, hS, -, hlo, hhi, hstep, heven⟩ := b.scaled_spec hb k
  rw [gridCandidate_eq] at h
  refine (inside_iff hS hlo hhi heven ?_).mp (Scaled.pick_inside h)
  push_cast
  rw [hstep]
  ring

/-- On a grid finer than the rounding interval is wide, `gridCandidate` finds a point. -/
theorem gridCandidate_ne_none (hb : b.Canonical) {k : ℤ} (hk : (10 : ℚ) ^ k < b.upper - b.lower) :
    gridCandidate b k ≠ none := by
  obtain ⟨S, hS, hx, hlo, hhi, hstep, -⟩ := b.scaled_spec hb k
  rw [gridCandidate_eq]
  have hq : (0 : ℚ) < 2 ^ b.exponent := zpow_pos two_pos _
  have hm : (1 : ℚ) ≤ b.mantissa := by exact_mod_cast hb.pos
  have hxlo : b.lower < b.mantissa * 2 ^ b.exponent := by
    unfold lower
    split <;> nlinarith
  have hxhi : b.mantissa * 2 ^ b.exponent < b.upper := by
    unfold upper
    nlinarith
  apply Scaled.pick_ne_none
  · exact_mod_cast (hstep ▸ (by positivity : (0 : ℚ) < 10 ^ k * S))
  · exact_mod_cast (show ((b.scaled k).lo : ℚ) < (b.scaled k).x by rw [hlo, hx]; nlinarith)
  · exact_mod_cast (show ((b.scaled k).x : ℚ) < (b.scaled k).hi by rw [hhi, hx]; nlinarith)
  · exact_mod_cast (show ((b.scaled k).lo : ℚ) + (b.scaled k).step < (b.scaled k).hi by
      rw [hlo, hhi, hstep]; nlinarith)

/-- `decimalExponent` is at most `⌊log₁₀ x⌋`: the power of ten it names is at most the value. -/
theorem decimalExponent_le (hb : b.Canonical) :
    (10 : ℚ) ^ decimalExponent b ≤ b.mantissa * 2 ^ b.exponent := by
  obtain ⟨-, hden, h2⟩ := pow2Parts_spec b.exponent
  have hval : (b.mantissa : ℚ) * 2 ^ b.exponent =
      ((b.mantissa * (pow2Parts b.exponent).1 : ℕ) : ℚ) / (pow2Parts b.exponent).2 := by
    rw [Nat.cast_mul, h2]
    field_simp
  unfold decimalExponent
  generalize pow2Parts b.exponent = p at hden hval ⊢
  obtain ⟨num, den⟩ := p
  dsimp only at hden hval ⊢
  split_ifs with htop
  · -- at least one: the integer part has `digitCount` digits
    obtain ⟨hD, hlow, -⟩ := digitCount_bounds (Nat.div_pos htop hden)
    have hexp : (digitCount (b.mantissa * num / den) : ℤ) - 1 =
        ((digitCount (b.mantissa * num / den) - 1 : ℕ) : ℤ) := by omega
    calc (10 : ℚ) ^ ((digitCount (b.mantissa * num / den) : ℤ) - 1)
        = ((10 ^ (digitCount (b.mantissa * num / den) - 1) : ℕ) : ℚ) := by
          rw [hexp, zpow_natCast]
          push_cast
          rfl
      _ ≤ ((b.mantissa * num / den : ℕ) : ℚ) := by exact_mod_cast hlow
      _ ≤ _ := hval ▸ Nat.cast_div_le
  · -- below one: the first power of ten that lifts it to one
    show (10 : ℚ) ^ (-(((List.range 400).find? _).getD 399 + 1 : ℤ)) ≤ _
    cases hj : (List.range 400).find? (fun j => decide (b.mantissa * num * Nat.pow 10 (j + 1) ≥ den)) with
    | none =>
      -- not reached within `10 ^ 400`: the value is still above the least subnormal
      have hm : (1 : ℚ) ≤ b.mantissa := by exact_mod_cast hb.pos
      have hq : (2 : ℚ) ^ (-1074 : ℤ) ≤ 2 ^ b.exponent := zpow_le_zpow_right₀ one_le_two hb.least
      have hbig : (10 : ℚ) ^ (-400 : ℤ) ≤ 2 ^ (-1074 : ℤ) := by
        rw [zpow_neg, zpow_neg, inv_le_inv₀ (by positivity) (by positivity)]
        exact_mod_cast (by decide +kernel : (2 : ℕ) ^ 1074 ≤ 10 ^ 400)
      simp only [Option.getD_none]
      calc (10 : ℚ) ^ (-(((399 : ℕ) : ℤ) + 1)) = 10 ^ (-400 : ℤ) := by norm_num
        _ ≤ 2 ^ (-1074 : ℤ) := hbig
        _ ≤ 2 ^ b.exponent := hq
        _ ≤ b.mantissa * 2 ^ b.exponent := le_mul_of_one_le_left (by positivity) hm
    | some j =>
      have hlift := List.find?_some hj
      simp only [decide_eq_true_eq, Nat.pow_eq] at hlift
      simp only [Option.getD_some]
      rw [hval, zpow_neg, inv_le_iff_one_le_mul₀ (by positivity), div_mul_eq_mul_div,
        le_div_iff₀ (by exact_mod_cast hden), one_mul]
      exact_mod_cast hlift

/-- Seventeen significant digits always suffice: the grid `10 ^ (e - 16)` below the leading digit
of `b` is finer than the interval that reads back as `b`. -/
theorem ten_pow_lt_width (hb : b.Canonical) :
    (10 : ℚ) ^ (decimalExponent b - 16) < b.upper - b.lower := by
  have he := decimalExponent_le hb
  have hq : (0 : ℚ) < 2 ^ b.exponent := zpow_pos two_pos _
  have h16 : (10 : ℚ) ^ (decimalExponent b - 16) = 10 ^ decimalExponent b / 10 ^ 16 := by
    rw [zpow_sub₀ (by norm_num)]
    norm_num
  have hm : (b.mantissa : ℚ) < 2 ^ 53 := by exact_mod_cast hb.lt
  rw [h16, div_lt_iff₀ (by positivity)]
  unfold upper lower
  cases hg : b.lowerGap
  · -- the interval is `2 ^ q` wide and `m < 2 ^ 53 < 10 ^ 16`
    norm_num
    nlinarith
  · -- at a power of two it is `3 / 4 · 2 ^ q` wide and `m = 2 ^ 52 < 3 / 4 · 10 ^ 16`
    have hm52 : (b.mantissa : ℚ) = 2 ^ 52 := by exact_mod_cast (hb.gap.mp hg).1
    norm_num
    nlinarith

end Binary

/-- Removing trailing zeros keeps the value `d · 10 ^ k`. -/
theorem stripZeros_value (d : ℕ) (k : ℤ) (fuel : ℕ) :
    ((stripZeros d k fuel).1 : ℚ) * 10 ^ (stripZeros d k fuel).2 = d * 10 ^ k := by
  induction fuel generalizing d k with
  | zero => rfl
  | succ n ih =>
    unfold stripZeros
    split_ifs with h
    · simp only [Bool.and_eq_true, decide_eq_true_eq, beq_iff_eq] at h
      have h10 : 10 ∣ d := Nat.dvd_of_mod_eq_zero h.2
      rw [ih, zpow_add_one₀ (by norm_num)]
      conv_rhs => rw [← Nat.div_mul_cancel h10]
      push_cast
      ring
    · rfl

/-- The shortest digits of `b` read back as `b`. -/
theorem shortest_rounds {b : Binary} (hb : b.Canonical) :
    b.Rounds ((shortest b).1 * 10 ^ (shortest b).2) := by
  unfold shortest
  dsimp only
  -- the search over one to seventeen digits succeeds, at the latest on seventeen
  have hsome : ((List.range 17).findSome? fun (i : ℕ) =>
      (gridCandidate b (decimalExponent b - i)).map (·, decimalExponent b - i)).isSome := by
    rw [Option.isSome_iff_ne_none, Ne, List.findSome?_eq_none_iff]
    intro hall
    have h16 := hall 16 (by simp)
    rw [Option.map_eq_none_iff] at h16
    exact Binary.gridCandidate_ne_none hb (by exact_mod_cast Binary.ten_pow_lt_width hb) h16
  obtain ⟨⟨c, k⟩, hp⟩ := Option.isSome_iff_exists.mp hsome
  obtain ⟨i, -, hi⟩ := List.exists_of_findSome?_eq_some hp
  obtain ⟨c', hc', hpair⟩ := Option.map_eq_some_iff.mp hi
  simp only [Prod.mk.injEq] at hpair
  obtain ⟨rfl, rfl⟩ := hpair
  rw [hp]
  simp only [Option.getD_some]
  rw [stripZeros_value]
  exact Binary.gridCandidate_rounds hb hc'

/-- The shortest digits of `b` are not all zero. -/
theorem shortest_pos {b : Binary} (hb : b.Canonical) : 0 < (shortest b).1 := by
  have hv := (shortest_rounds hb).two_pow_lt hb
  rcases Nat.eq_zero_or_pos (shortest b).1 with h0 | h0
  · rw [h0, Nat.cast_zero, zero_mul] at hv
    exact absurd hv (not_lt.mpr (by positivity))
  · exact h0

end TurnRelay.Decimal
