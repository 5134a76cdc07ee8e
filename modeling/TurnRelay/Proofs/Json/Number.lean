import TurnRelay.Proofs.Decimal.Grid
import TurnRelay.Json.Decode

/-!
# Number texts read back

JSON output writes a finite double as its shortest digits, positional or with an exponent, and
zeros as `0` and `-0`; JSON input reads a number literal as its sign, all its digits and the
power of ten they are scaled by (`numberParts`), then rounds that to the nearest double.

`literalChars` assembles a literal from its parts and `numberParts_literalChars` reads it back;
`positional_denotes` and `withExponent_denotes` say that both written forms are such literals and
denote the digits' value `d · 10 ^ k`. With `shortest_rounds` and the correct rounding of the
reader this gives `numberValue_jsonText`: every text written for a double reads back as that
double.
-/

namespace TurnRelay.Decimal

/-- Reading digits after an accumulated value shifts that value up by the digits read. -/
theorem foldl_digits (acc : ℕ) (ds : List Char) :
    ds.foldl (fun acc d => acc * 10 + (d.toNat - 48)) acc = acc * 10 ^ ds.length + digitsValue ds := by
  induction ds generalizing acc with
  | nil => simp [digitsValue]
  | cons c ds ih =>
    simp only [List.foldl_cons, digitsValue, List.length_cons]
    rw [ih, ih (0 * 10 + (c.toNat - 48))]
    ring

theorem digitsValue_append (as bs : List Char) :
    digitsValue (as ++ bs) = digitsValue as * 10 ^ bs.length + digitsValue bs := by
  unfold digitsValue
  rw [List.foldl_append, foldl_digits]
  rfl

theorem digitsValue_replicate_zero (n : ℕ) : digitsValue (List.replicate n '0') = 0 := by
  induction n with
  | zero => rfl
  | succ n ih =>
    rw [List.replicate_succ', digitsValue_append, ih]
    rfl

/-- Leading zeros do not change the value. -/
theorem digitsValue_zeros_append (n : ℕ) (ds : List Char) :
    digitsValue (List.replicate n '0' ++ ds) = digitsValue ds := by
  rw [digitsValue_append, digitsValue_replicate_zero, zero_mul, zero_add]

/-- The decimal digits of `n` read back as `n`. -/
theorem digitsValue_toDigits (n : ℕ) : digitsValue (Nat.toDigits 10 n) = n := by
  induction n using Nat.strong_induction_on with
  | _ n ih =>
    rcases Nat.lt_or_ge n 10 with hn | hn
    · rw [Nat.toDigits_of_lt_base hn]
      interval_cases n <;> rfl
    · have hq : 0 < n / 10 := Nat.div_pos hn (by norm_num)
      have hsplit := Nat.toDigits_append_toDigits (b := 10) (by norm_num) hq (Nat.mod_lt n (by norm_num))
      rw [Nat.div_add_mod] at hsplit
      rw [← hsplit, digitsValue_append, ih _ (Nat.div_lt_self (by omega) (by norm_num)),
        Nat.toDigits_of_lt_base (Nat.mod_lt n (by norm_num))]
      have hlast : digitsValue [Nat.digitChar (n % 10)] = n % 10 := by
        have := Nat.mod_lt n (show 10 > 0 by norm_num)
        interval_cases n % 10 <;> rfl
      rw [hlast]
      simp only [List.length_singleton, pow_one]
      omega

theorem digitText_toList (d : ℕ) : (digitText d).toList = Nat.toDigits 10 d := by
  simp only [digitText, Nat.toString_eq_repr, Nat.toList_repr]

open Float.Model Float.Model.UnpackedFloat in
/-- A double whose exponent field is all ones is NaN or infinite. -/
theorem isNaN_or_isInf_of_field {x : Float} (hx : x.toBits.toNat / 2 ^ 52 % 2 ^ 11 = 2047) :
    (x.isNaN || x.isInf) = true := by
  have hexp : @unpackExponent .binary64 x.toModel.toBits.toBitVec = -1#11 := by
    apply BitVec.eq_of_toNat_eq
    rw [unpackExponent_toNat]
    exact hx
  show (x.toModel.unpack.isNaN || x.toModel.unpack.isInf) = true
  unfold Float.Model.unpack UnpackedFloat.unpack
  dsimp only
  rw [if_pos hexp]
  split <;> rfl

/-- A double without a binary form is NaN, infinite, or a zero: its bits below the sign are all
zero. -/
theorem Binary.ofFloat_none {x : Float} {neg : Bool} (h : Binary.ofFloat x = (neg, none)) :
    x.toBits.toNat / 2 ^ 52 % 2 ^ 11 = 2047 ∨ x.toBits.toNat % 2 ^ 63 = 0 := by
  unfold Binary.ofFloat at h
  simp only [show Nat.pow 2 63 = 2 ^ 63 from rfl, show Nat.pow 2 52 = 2 ^ 52 from rfl,
    show Nat.pow 2 11 = 2 ^ 11 from rfl, beq_iff_eq] at h
  split_ifs at h with hinf hzero hfrac
  · exact .inl hinf
  · right
    omega
  all_goals simp at h

theorem isDigit_of_mem_toDigits {n : ℕ} {c : Char} (h : c ∈ Nat.toDigits 10 n) : c.isDigit = true :=
  Nat.isDigit_of_mem_toDigits (by norm_num) (by norm_num) h

end TurnRelay.Decimal

namespace TurnRelay.Json

open Decimal

/-- The characters of a number literal from its parts: a sign, the integer digits, an optional
fraction after a point, and an optional exponent with its sign. -/
def literalChars (neg : Bool) (whole : List Char) (frac : Option (List Char))
    (exp : Option (Bool × List Char)) : List Char :=
  (if neg then ['-'] else []) ++ (whole ++ ((frac.map ('.' :: ·)).getD [] ++
    (exp.map fun p => 'e' :: (if p.1 then '-' else '+') :: p.2).getD []))

/-- The value of an optional exponent. -/
def exponentValue : Option (Bool × List Char) → ℤ
  | none => 0
  | some (neg, ds) => if neg then -(digitsValue ds : ℤ) else digitsValue ds

theorem takeWhile_digits {whole rest : List Char} (hwhole : ∀ c ∈ whole, c.isDigit = true)
    (hrest : ∀ c ∈ rest.head?, c.isDigit = false) :
    (whole ++ rest).takeWhile Char.isDigit = whole ∧ (whole ++ rest).dropWhile Char.isDigit = rest := by
  rw [List.takeWhile_append_of_pos hwhole, List.dropWhile_append_of_pos hwhole]
  cases rest with
  | nil => simp
  | cons c rest =>
    have hc : c.isDigit = false := hrest c rfl
    simp [hc]

/-- A leading minus sign only sets the sign of what follows. -/
theorem numberParts_minus {cs : List Char} (hcs : ∀ rest, cs ≠ '-' :: rest) :
    numberParts (String.ofList ('-' :: cs)) = (true, (numberParts (String.ofList cs)).2) := by
  unfold numberParts
  -- the sign match on `cs` falls through to its last case by `hcs`
  simp only [String.toList_ofList]

/-- `numberParts` reads an unsigned literal back into all its digits and the power of ten they
are scaled by. -/
theorem numberParts_unsigned {whole : List Char} {frac : Option (List Char)}
    {exp : Option (Bool × List Char)} (hwhole : whole ≠ []) (hdigits : ∀ c ∈ whole, c.isDigit = true)
    (hfrac : ∀ ds ∈ frac, ∀ c ∈ ds, c.isDigit = true) :
    numberParts (String.ofList (literalChars false whole frac exp)) =
      (false, digitsValue (whole ++ frac.getD []), exponentValue exp - (frac.getD []).length) := by
  -- the integer digits end at a point, an `e`, or the end
  set expPart := (exp.map fun p => 'e' :: (if p.1 then '-' else '+') :: p.2).getD [] with hexpPart
  have hexpHead : ∀ c ∈ expPart.head?, c.isDigit = false := by
    cases exp <;> simp [hexpPart]
  set tail := (frac.map ('.' :: ·)).getD [] ++ expPart with htail
  have htailHead : ∀ c ∈ tail.head?, c.isDigit = false := by
    cases frac <;> cases exp <;> simp [htail, hexpPart]
  obtain ⟨hwhole', hrest⟩ := takeWhile_digits hdigits htailHead
  have hlit : literalChars false whole frac exp = whole ++ tail := rfl
  unfold numberParts
  simp only [String.toList_ofList]
  split
  case h_1 rest heq =>
    -- the literal starts with a digit, not a sign
    obtain ⟨c, cs, rfl⟩ := List.exists_cons_of_ne_nil hwhole
    rw [hlit, List.cons_append, List.cons.injEq] at heq
    have := hdigits c (by simp)
    simp [heq.1] at this
  case h_2 =>
    dsimp only
    rw [hlit, hwhole', hrest]
    rcases frac with _ | ds
    · simp only [htail, Option.map_none, Option.getD_none, List.nil_append]
      rw [hexpPart]
      rcases exp with _ | ⟨_ | _, es⟩ <;> rfl
    · simp only [htail, Option.map_some, Option.getD_some, List.cons_append]
      obtain ⟨hds, hrest'⟩ := takeWhile_digits (hfrac ds rfl) hexpHead
      rw [hds, hrest', hexpPart]
      rcases exp with _ | ⟨_ | _, es⟩ <;> rfl

/-- `numberParts` reads a literal back into its sign, all its digits, and the power of ten they
are scaled by. -/
theorem numberParts_literalChars (neg : Bool) {whole : List Char} {frac : Option (List Char)}
    {exp : Option (Bool × List Char)} (hwhole : whole ≠ []) (hdigits : ∀ c ∈ whole, c.isDigit = true)
    (hfrac : ∀ ds ∈ frac, ∀ c ∈ ds, c.isDigit = true) :
    numberParts (String.ofList (literalChars neg whole frac exp)) =
      (neg, digitsValue (whole ++ frac.getD []), exponentValue exp - (frac.getD []).length) := by
  cases neg
  case false => exact numberParts_unsigned hwhole hdigits hfrac
  case true =>
    have hstart : ∀ rest, literalChars false whole frac exp ≠ '-' :: rest := by
      intro rest h
      obtain ⟨c, cs, rfl⟩ := List.exists_cons_of_ne_nil hwhole
      simp only [literalChars, Bool.false_eq_true, if_false, List.nil_append, List.cons_append,
        List.cons.injEq] at h
      have := hdigits c (by simp)
      simp [h.1] at this
    rw [show literalChars true whole frac exp = '-' :: literalChars false whole frac exp from rfl,
      numberParts_minus hstart, numberParts_unsigned hwhole hdigits hfrac]

/-- A number literal whose digits, scaled by its exponent less the length of its fraction,
denote `v`. -/
structure Denotes (whole : List Char) (frac : Option (List Char)) (exp : Option (Bool × List Char))
    (v : ℚ) : Prop where
  whole_ne : whole ≠ []
  whole_digits : ∀ c ∈ whole, c.isDigit = true
  frac_digits : ∀ ds ∈ frac, ∀ c ∈ ds, c.isDigit = true
  value : (digitsValue (whole ++ frac.getD []) : ℚ) *
    10 ^ (exponentValue exp - (frac.getD []).length) = v

theorem isDigit_zero : ('0' : Char).isDigit = true := rfl

/-- The positional text of `d · 10 ^ k` is a literal without exponent denoting it. -/
theorem positional_denotes (d : ℕ) (k : ℤ) :
    ∃ whole frac, (positional d k).toList = literalChars false whole frac none ∧
      Denotes whole frac none (d * 10 ^ k) := by
  have hds := digitText_toList d
  have hdigit : ∀ c ∈ Nat.toDigits 10 d, c.isDigit = true := fun c hc => isDigit_of_mem_toDigits hc
  have hne : Nat.toDigits 10 d ≠ [] := List.ne_nil_of_length_pos Nat.length_toDigits_pos
  unfold positional
  split_ifs with hk
  · -- an integer: the digits, then `k` zeros
    refine ⟨Nat.toDigits 10 d ++ List.replicate k.toNat '0', none, ?_, ?_⟩
    · simp [literalChars, hds]
    · refine ⟨by simp [hne], ?_, by simp, ?_⟩
      · intro c hc
        rcases List.mem_append.mp hc with hc | hc
        · exact hdigit c hc
        · rw [List.eq_of_mem_replicate hc]
          rfl
      · simp only [Option.getD_none, List.append_nil, digitsValue_append, digitsValue_toDigits,
          digitsValue_replicate_zero, List.length_replicate, List.length_nil, exponentValue]
        push_cast
        rw [← zpow_natCast, Int.toNat_of_nonneg (by omega)]
        simp
  · have hlength : (digitText d).length = (Nat.toDigits 10 d).length := by
      rw [← String.length_toList, hds]
    have hshift : k = -(k.natAbs : ℤ) := by omega
    dsimp only
    split_ifs with hlen
    · -- a point inside the digits
      rw [hlength] at hlen
      set n := (Nat.toDigits 10 d).length - k.natAbs with hn
      refine ⟨(Nat.toDigits 10 d).take n, some ((Nat.toDigits 10 d).drop n), ?_, ?_⟩
      · simp [literalChars, hds, hlength, hn]
      · refine ⟨?_, fun c hc => hdigit c (List.mem_of_mem_take hc),
          fun ds hds' c hc => ?_, ?_⟩
        · simp only [ne_eq, List.take_eq_nil_iff, not_or]
          exact ⟨by omega, hne⟩
        · simp only [Option.mem_def, Option.some.injEq] at hds'
          subst hds'
          exact hdigit c (List.mem_of_mem_drop hc)
        · simp only [Option.getD_some, List.take_append_drop, digitsValue_toDigits, exponentValue,
            List.length_drop, zero_sub]
          rw [hn, Nat.sub_sub_self hlen.le, ← hshift]
    · -- a point before the digits, after `0.` and zeros
      rw [hlength] at hlen
      refine ⟨['0'], some (List.replicate (k.natAbs - (Nat.toDigits 10 d).length) '0' ++
        Nat.toDigits 10 d), ?_, ?_⟩
      · simp [literalChars, hds, hlength]
      · refine ⟨by simp, by simp [isDigit_zero], fun ds hds' c hc => ?_, ?_⟩
        · simp only [Option.mem_def, Option.some.injEq] at hds'
          subst hds'
          rcases List.mem_append.mp hc with hc | hc
          · rw [List.eq_of_mem_replicate hc]
            rfl
          · exact hdigit c hc
        · have hzeros : ['0'] ++ (List.replicate (k.natAbs - (Nat.toDigits 10 d).length) '0' ++
              Nat.toDigits 10 d) =
              List.replicate (k.natAbs - (Nat.toDigits 10 d).length + 1) '0' ++ Nat.toDigits 10 d := rfl
          rw [Option.getD_some, hzeros, digitsValue_zeros_append, digitsValue_toDigits]
          simp only [exponentValue, List.length_append, List.length_replicate, zero_sub]
          rw [Nat.sub_add_cancel (by omega), ← hshift]

/-- The exponent text of `d · 10 ^ k`, at any exponent width, is a literal denoting it. -/
theorem withExponent_denotes (d : ℕ) (k : ℤ) (w : ℕ) :
    ∃ whole frac ex, (withExponent d k w).toList = literalChars false whole frac (some ex) ∧
      Denotes whole frac (some ex) (d * 10 ^ k) := by
  have hds := digitText_toList d
  have hdigit : ∀ c ∈ Nat.toDigits 10 d, c.isDigit = true := fun c hc => isDigit_of_mem_toDigits hc
  have hne : Nat.toDigits 10 d ≠ [] := List.ne_nil_of_length_pos Nat.length_toDigits_pos
  have hlength : (digitText d).length = (Nat.toDigits 10 d).length := by
    rw [← String.length_toList, hds]
  set e := k + ((Nat.toDigits 10 d).length : ℤ) - 1 with he
  -- the exponent's digits, padded with zeros to the width, read back as `|e|`
  set mag := List.replicate (w - (toString e.natAbs).length) '0' ++ Nat.toDigits 10 e.natAbs
    with hmag
  have hmagValue : exponentValue (some (decide (e < 0), mag)) = e := by
    simp only [exponentValue, hmag, digitsValue_zeros_append, digitsValue_toDigits]
    split_ifs with hneg <;> simp at hneg <;> omega
  have hmagText : (String.ofList (List.replicate (w - (toString e.natAbs).length) '0') ++
      toString e.natAbs).toList = mag := by
    simp [hmag, Nat.toString_eq_repr, Nat.toList_repr]
  have hsign : (if e < 0 then "-" else "+").toList = [if decide (e < 0) then '-' else '+'] := by
    by_cases hneg : e < 0 <;> simp [hneg]
  have hvalue : ∀ {frac : List Char}, frac.length = (Nat.toDigits 10 d).length - 1 →
      (d : ℚ) * 10 ^ (e - frac.length) = d * 10 ^ k := by
    intro frac hfrac
    have hpos : 0 < (Nat.toDigits 10 d).length := Nat.length_toDigits_pos
    have hexp : e - (frac.length : ℤ) = k := by
      rw [hfrac, he]
      omega
    rw [hexp]
  unfold withExponent
  dsimp only
  rw [hlength, ← he]
  by_cases hlen : (Nat.toDigits 10 d).length > 1
  · -- one digit, a point, the others
    rw [if_pos hlen]
    refine ⟨(Nat.toDigits 10 d).take 1, some ((Nat.toDigits 10 d).drop 1), (decide (e < 0), mag),
      ?_, ?_⟩
    · simp only [String.toList_append, hsign, hmagText]
      simp [literalChars, hds]
    · refine ⟨by simp [hne], fun c hc => hdigit c (List.mem_of_mem_take hc), fun ds hds' c hc => ?_, ?_⟩
      · simp only [Option.mem_def, Option.some.injEq] at hds'
        subst hds'
        exact hdigit c (List.mem_of_mem_drop hc)
      · rw [Option.getD_some, List.take_append_drop, digitsValue_toDigits, hmagValue]
        exact hvalue (by simp)
  · -- a single digit
    rw [if_neg hlen]
    refine ⟨Nat.toDigits 10 d, none, (decide (e < 0), mag), ?_, ?_⟩
    · simp only [String.toList_append, hsign, hmagText]
      simp [literalChars, hds]
    · refine ⟨hne, hdigit, by simp, ?_⟩
      rw [Option.getD_none, List.append_nil, digitsValue_toDigits, hmagValue]
      exact hvalue (by simp; omega)

/-- A literal that denotes a value rounding to a finite double reads back as that double. -/
theorem numberValue_literal {x : Float} {neg : Bool} {b : Binary}
    (h : Binary.ofFloat x = (neg, some b)) {whole : List Char} {frac : Option (List Char)}
    {ex : Option (Bool × List Char)} {v : ℚ} (hden : Denotes whole frac ex v) (hv : b.Rounds v) :
    numberValue (String.ofList (literalChars neg whole frac ex)) = some x := by
  have hb := (Binary.ofFloat_bits h).1
  have hx : scientific neg (digitsValue (whole ++ frac.getD []))
      (exponentValue ex - (frac.getD []).length) = x := by
    rw [scientific_of_rounds hb neg (hden.value ▸ hv)]
    exact ofModel_pack_eq h
  have hfinite : x.isInf = false := by
    show x.toModel.unpack.isInf = false
    rw [unpack_toModel h]
    rfl
  unfold numberValue
  rw [numberParts_literalChars neg hden.whole_ne hden.whole_digits hden.frac_digits]
  dsimp only
  rw [hx, hfinite]
  rfl

/-- A signed text whose body reads as a literal is that literal with the sign in front. -/
theorem signed_eq_ofList (neg : Bool) {body : String} {whole : List Char}
    {frac : Option (List Char)} {ex : Option (Bool × List Char)}
    (hbody : body.toList = literalChars false whole frac ex) :
    (if neg then "-" else "") ++ body = String.ofList (literalChars neg whole frac ex) := by
  rw [← String.toList_inj, String.toList_append, hbody, String.toList_ofList]
  cases neg <;> rfl

/-- Every JSON number text reads back as the double it was written from, negative zero
included. -/
theorem numberValue_jsonText {x : Float} {t : String} (h : jsonText x = some t) :
    numberValue t = some x := by
  unfold jsonText at h
  rcases hx : Binary.ofFloat x with ⟨neg, _ | b⟩
  · -- a zero: NaN and the infinities have no text
    rw [hx] at h
    dsimp only at h
    split at h
    · cases h
    rename_i hspecial
    have hfield : x.toBits.toNat / 2 ^ 52 % 2 ^ 11 ≠ 2047 := fun hf =>
      absurd (isNaN_or_isInf_of_field hf) (by simpa using hspecial)
    have hlow := (Binary.ofFloat_none hx).resolve_left hfield
    have hlt := x.toBits.toNat_lt
    split at h <;> rename_i hsign
    · cases h
      have hbits : x.toBits = (-(0 : Float)).toBits := by
        apply UInt64.toNat_inj.mp
        rw [show (-(0 : Float)).toBits.toNat = 2 ^ 63 by decide +kernel]
        simp only [show Nat.pow 2 63 = 2 ^ 63 from rfl] at hsign
        omega
      rw [float_eq_of_toBits hbits]
      rfl
    · cases h
      have hbits : x.toBits = (0 : Float).toBits := by
        apply UInt64.toNat_inj.mp
        rw [show (0 : Float).toBits.toNat = 0 by decide +kernel]
        simp only [show Nat.pow 2 63 = 2 ^ 63 from rfl] at hsign
        omega
      rw [float_eq_of_toBits hbits]
      rfl
  · -- a finite nonzero double: its shortest digits, positional or with an exponent
    rw [hx] at h
    dsimp only at h
    have hv := shortest_rounds (Binary.ofFloat_bits hx).1
    generalize shortest b = p at h hv
    obtain ⟨d, k⟩ := p
    dsimp only at h hv
    split at h
    · cases h
      obtain ⟨whole, frac, ex, hchars, hden⟩ := withExponent_denotes d k 1
      rw [signed_eq_ofList neg hchars]
      exact numberValue_literal hx hden hv
    · cases h
      obtain ⟨whole, frac, hchars, hden⟩ := positional_denotes d k
      rw [signed_eq_ofList neg hchars]
      exact numberValue_literal hx hden hv

end TurnRelay.Json
