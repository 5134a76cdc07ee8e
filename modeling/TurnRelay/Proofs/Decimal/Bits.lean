import TurnRelay.Proofs.Decimal.Rounding

/-!
# The bits of a double

A double is 64 bits: a sign, an 11-bit biased exponent and 52 bits of mantissa, the leading bit
of a normal mantissa left implicit. `Binary.bits` lays a binary form out that way.
`Binary.ofFloat_bits` says that the form `Binary.ofFloat` reads off a double is in canonical
shape and lays out to the double's own bits; `pack_finite_toNat` and `unpack_of_toNat` say that
the model packs and unpacks finite values in canonical shape along the same layout. Together they
let a result computed on unpacked values be compared with a given double (`ofModel_pack_eq`).
-/

namespace TurnRelay.Decimal

open Float.Model Float.Model.UnpackedFloat

namespace Binary

/-- The biased exponent field of a binary form: `0` for a subnormal. -/
def field (b : Binary) : Nat := if 2 ^ 52 ≤ b.mantissa then (b.exponent + 1075).toNat else 0

/-- The bits of the double with sign `neg` and binary form `b`. -/
def bits (neg : Bool) (b : Binary) : Nat :=
  neg.toNat * 2 ^ 63 + b.field * 2 ^ 52 + b.mantissa % 2 ^ 52

theorem field_lt {b : Binary} (hb : b.Canonical) : b.field < 2047 := by
  have := hb.most
  unfold field
  split <;> omega

end Binary

/-- The sign a sign bit stands for. -/
def signOf (neg : Bool) : Sign := if neg then .negative else .positive

@[simp] theorem signOf_toBitVec_toNat (neg : Bool) : (signOf neg).toBitVec.toNat = neg.toNat := by
  cases neg <;> rfl

theorem packComponents_toNat (s : Sign) (e : BitVec 11) (m : BitVec 52) :
    (packComponents .binary64 s e m).toNat = s.toBitVec.toNat * 2 ^ 63 + e.toNat * 2 ^ 52 + m.toNat := by
  unfold packComponents
  rw [BitVec.toNat_append, BitVec.toNat_append, ← Nat.shiftLeft_add_eq_or_of_lt m.isLt,
    ← Nat.shiftLeft_add_eq_or_of_lt e.isLt, Nat.shiftLeft_eq, Nat.shiftLeft_eq]
  ring

/-- The model packs a finite value in canonical form into the bits `Binary.bits` says. -/
theorem pack_finite_toNat {b : Binary} (hb : b.Canonical) (neg : Bool) :
    (UnpackedFloat.pack .binary64 (.finite (signOf neg) b.mantissa b.exponent hb.pos)).toNat =
      Binary.bits neg b := by
  have hlt := hb.lt
  have hleast := hb.least
  have hmost := hb.most
  unfold UnpackedFloat.pack
  simp only [Format.exponentBias, Format.mantissaBits]
  norm_num
  rw [if_neg (by omega)]
  by_cases hn : 2 ^ 52 ≤ b.mantissa
  · -- a normal double: the biased exponent and the mantissa without its leading bit
    have hlog : b.mantissa.log2 = 52 := (Nat.log2_eq_iff hb.pos.ne').mpr ⟨hn, hlt⟩
    rw [if_pos (by omega), packComponents_toNat, signOf_toBitVec_toNat, BitVec.toNat_ofNat,
      BitVec.toNat_ofNat, Binary.bits, Binary.field, if_pos hn]
    have hfield : (b.exponent + 1023 + 52).toNat % 2 ^ 11 = (b.exponent + 1075).toNat := by
      rw [Nat.mod_eq_of_lt (by omega)]
      omega
    rw [hfield]
  · -- a subnormal: exponent field zero
    have hlog : b.mantissa.log2 < 52 := (Nat.log2_lt hb.pos.ne').mpr (by omega)
    rw [if_neg (by omega), packComponents_toNat, signOf_toBitVec_toNat, BitVec.toNat_ofNat,
      Binary.bits, Binary.field, if_neg hn]
    simp

theorem unpackMantissa_toNat (w : BitVec 64) :
    (@unpackMantissa .binary64 w).toNat = w.toNat % 2 ^ 52 := by
  simp [unpackMantissa]

theorem unpackExponent_toNat (w : BitVec 64) :
    (@unpackExponent .binary64 w).toNat = w.toNat / 2 ^ 52 % 2 ^ 11 := by
  simp [unpackExponent, Nat.shiftRight_eq_div_pow]

theorem unpackSign_ofBitVec (w : BitVec 64) :
    Sign.ofBitVec (@unpackSign .binary64 w) = signOf (decide (2 ^ 63 ≤ w.toNat)) := by
  have hlt := w.isLt
  have hs : (@unpackSign .binary64 w).toNat = w.toNat / 2 ^ 63 % 2 := by
    simp [unpackSign, Nat.shiftRight_eq_div_pow]
  unfold Sign.ofBitVec signOf
  by_cases h : 2 ^ 63 ≤ w.toNat
  · rw [if_neg, decide_eq_true h, if_pos rfl]
    intro h0
    rw [h0] at hs
    simp at hs
    omega
  · rw [if_pos, decide_eq_false h]
    · rfl
    apply BitVec.eq_of_toNat_eq
    rw [hs]
    simp
    omega

theorem finite_congr {s : Sign} {m m' : Nat} {e e' : ℤ} {h : 0 < m} {h' : 0 < m'} (hm : m = m')
    (he : e = e') : UnpackedFloat.finite s m e h = .finite s m' e' h' := by
  subst hm he
  rfl

theorem exponentBias_binary64 : (Format.binary64.exponentBias : ℤ) = 1023 := by
  decide

/-- The model unpacks the bits `Binary.bits` says into the finite value in canonical form. -/
theorem unpack_of_toNat {b : Binary} (hb : b.Canonical) (neg : Bool) {w : BitVec 64}
    (hw : w.toNat = Binary.bits neg b) :
    UnpackedFloat.unpack .binary64 w = .finite (signOf neg) b.mantissa b.exponent hb.pos := by
  have hlt := hb.lt
  have hleast := hb.least
  have hfield := Binary.field_lt hb
  have hneg : decide (2 ^ 63 ≤ w.toNat) = neg := by
    rw [hw, Binary.bits]
    cases neg <;> simp <;> omega
  have hm := unpackMantissa_toNat w
  have he := unpackExponent_toNat w
  rw [hw, Binary.bits] at hm he
  have hm' : (@unpackMantissa .binary64 w).toNat = b.mantissa % 2 ^ 52 := by
    rw [hm]
    omega
  have he' : (@unpackExponent .binary64 w).toNat = b.field := by
    rw [he]
    omega
  have hninf : @unpackExponent .binary64 w ≠ -1#_ := by
    intro h
    have := congrArg BitVec.toNat h
    rw [he'] at this
    simp at this
    omega
  unfold UnpackedFloat.unpack
  simp only [unpackSign_ofBitVec, hneg, hninf, if_false, exponentBias_binary64]
  by_cases hn : 2 ^ 52 ≤ b.mantissa
  · -- a normal double: the leading bit comes back
    have hf : b.field = (b.exponent + 1075).toNat := if_pos hn
    have hz : @unpackExponent .binary64 w ≠ 0#11 := by
      intro h
      have := congrArg BitVec.toNat h
      rw [he', hf] at this
      simp at this
      omega
    rw [if_neg hz]
    apply finite_congr
    · rw [BitVec.toNat_append, ← Nat.shiftLeft_add_eq_or_of_lt (BitVec.isLt _), hm',
        Nat.shiftLeft_eq]
      simp
      omega
    · rw [he', hf]
      omega
  · -- a subnormal: exponent field zero and the least exponent
    have hf : b.field = 0 := if_neg hn
    have hz : @unpackExponent .binary64 w = 0#11 := by
      apply BitVec.eq_of_toNat_eq
      rw [he', hf]
      rfl
    have hnz : @unpackMantissa .binary64 w ≠ 0#52 := by
      intro h
      have h0 : b.mantissa % 2 ^ 52 = 0 := by rw [← hm', h]; rfl
      have := hb.pos
      omega
    have hE : b.exponent = -1074 := hb.normal.resolve_left hn
    rw [if_pos hz, dif_neg hnz]
    apply finite_congr
    · rw [hm']
      omega
    · rw [he', hf, hE]
      rfl

/-- What `Binary.ofFloat` reads off a double with a finite nonzero value: a form in canonical
shape, whose bits with the sign are the double's. -/
theorem Binary.ofFloat_bits {x : Float} {neg : Bool} {b : Binary}
    (h : Binary.ofFloat x = (neg, some b)) : b.Canonical ∧ x.toBits.toNat = Binary.bits neg b := by
  have hlt : x.toBits.toNat < 2 ^ 64 := x.toBits.toNat_lt
  unfold Binary.ofFloat at h
  simp only [show Nat.pow 2 63 = 2 ^ 63 from rfl, show Nat.pow 2 52 = 2 ^ 52 from rfl,
    show Nat.pow 2 11 = 2 ^ 11 from rfl, beq_iff_eq] at h
  split_ifs at h with hinf hzero hfrac
  · simp at h
  · simp at h
  · -- a subnormal
    simp only [Prod.mk.injEq, Option.some.injEq] at h
    obtain ⟨rfl, rfl⟩ := h
    refine ⟨⟨by simp; omega, by simp; omega, by simp, by simp, .inr rfl, by simp⟩, ?_⟩
    simp only [Binary.bits, Binary.field]
    rw [if_neg (by simp; omega)]
    cases hs : decide (x.toBits.toNat ≥ 2 ^ 63) <;> simp at hs <;> simp <;> omega
  · -- a normal double
    simp only [Prod.mk.injEq, Option.some.injEq] at h
    obtain ⟨rfl, rfl⟩ := h
    refine ⟨⟨by simp, by simp; omega, by simp; omega, by simp; omega, .inl (by simp), ?_⟩, ?_⟩
    · simp only [Bool.and_eq_true, beq_iff_eq, decide_eq_true_eq]
      constructor
      · rintro ⟨h1, h2⟩
        exact ⟨by omega, by omega⟩
      · rintro ⟨h1, h2⟩
        exact ⟨by omega, by omega⟩
    · simp only [Binary.bits, Binary.field]
      rw [if_pos (by simp)]
      cases hs : decide (x.toBits.toNat ≥ 2 ^ 63) <;> simp at hs <;> simp <;> omega

theorem float_eq_of_toBits {x y : Float} (h : x.toBits = y.toBits) : x = y := by
  rcases x with ⟨⟨bx, vx⟩⟩
  rcases y with ⟨⟨bw, vw⟩⟩
  change bx = bw at h
  subst h
  rfl

/-- The double whose form `Binary.ofFloat` reads is the packing of that form. -/
theorem ofModel_pack_eq {x : Float} {neg : Bool} {b : Binary}
    (h : Binary.ofFloat x = (neg, some b)) :
    Float.ofModel (Float.Model.pack
      (.finite (signOf neg) b.mantissa b.exponent (Binary.ofFloat_bits h).1.pos)) = x := by
  obtain ⟨hb, hbits⟩ := Binary.ofFloat_bits h
  apply float_eq_of_toBits
  apply UInt64.toNat_inj.mp
  change (UnpackedFloat.pack _ _).toNat = _
  rw [pack_finite_toNat hb, hbits]

theorem unpack_toModel {x : Float} {neg : Bool} {b : Binary}
    (h : Binary.ofFloat x = (neg, some b)) :
    x.toModel.unpack =
      .finite (signOf neg) b.mantissa b.exponent (Binary.ofFloat_bits h).1.pos :=
  unpack_of_toNat (Binary.ofFloat_bits h).1 neg (Binary.ofFloat_bits h).2

theorem unpack_pack_finite {b : Binary} (hb : b.Canonical) (neg : Bool) :
    (Float.Model.pack (.finite (signOf neg) b.mantissa b.exponent hb.pos)).unpack =
      .finite (signOf neg) b.mantissa b.exponent hb.pos :=
  unpack_of_toNat hb neg (pack_finite_toNat hb neg)

end TurnRelay.Decimal
