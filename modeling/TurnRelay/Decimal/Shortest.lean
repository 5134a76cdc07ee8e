import TurnRelay.Decimal.Integer

/-!
# Shortest decimal form of a double

A finite double `x > 0` is `m · 2 ^ q` for integers `m` and `q`. Every real number strictly
between the midpoints to its two neighbouring doubles reads back as `x`; the midpoints
themselves read back as `x` exactly when `m` is even, since ties are broken toward the even mantissa.

`shortest x` picks the decimal `d · 10 ^ k` with the fewest significant digits in that interval,
and of two such decimals the one nearer to `x` (an exact tie goes to the even `d`). It walks the
digit counts `1, 2, …, 17` and tests, on each grid `10 ^ k`, the two grid points around `x`: if
any point of a grid lies in the interval, one of these two does. All arithmetic is on `Nat`.

`Decimal.scientific` turns a decimal literal into the nearest double, with the exponent clamped
where the result is surely zero or infinite.
-/

namespace TurnRelay.Decimal

/-- A finite positive double as `mantissa · 2 ^ exponent`, with `lowerGap` set when the gap to
the next smaller double is half the gap to the next larger one (a power of two above the least
normal exponent). -/
structure Binary where
  mantissa : Nat
  exponent : Int
  lowerGap : Bool

/-- The sign, and for a finite nonzero value its binary form. -/
def Binary.ofFloat (x : Float) : Bool × Option Binary :=
  let bits := x.toBits.toNat
  let neg := bits ≥ Nat.pow 2 63
  let expField : Nat := (bits / Nat.pow 2 52) % Nat.pow 2 11
  let frac : Nat := bits % Nat.pow 2 52
  if expField == 0x7FF then (neg, none)
  else if expField == 0 then
    if frac == 0 then (neg, none)
    else (neg, some ⟨frac, -1074, false⟩)
  else
    (neg, some ⟨frac + Nat.pow 2 52, (expField : Int) - 1075, frac == 0 && expField > 1⟩)

/-- `2 ^ e` for an integer exponent, split into a numerator and a denominator power. -/
def pow2Parts (e : Int) : Nat × Nat :=
  if e ≥ 0 then (Nat.pow 2 e.toNat, 1) else (1, Nat.pow 2 e.natAbs)

/-- `10 ^ e` for an integer exponent, split into a numerator and a denominator power. -/
def pow10Parts (e : Int) : Nat × Nat :=
  if e ≥ 0 then (Nat.pow 10 e.toNat, 1) else (1, Nat.pow 10 e.natAbs)

/-- The number of decimal digits of a positive natural number. -/
def digitCount (n : Nat) : Nat := (toString n).length

/-- `⌊log₁₀ x⌋` for `x = m · 2 ^ q > 0`. -/
def decimalExponent (b : Binary) : Int :=
  let (num, den) := pow2Parts b.exponent
  let top := b.mantissa * num
  if top ≥ den then
    (digitCount (top / den) : Int) - 1
  else
    -- the least `j` with `top · 10 ^ j ≥ den`
    let j := (List.range 400).find? (fun j => top * Nat.pow 10 (j + 1) ≥ den)
    Int.neg ((j.getD 399 : Int) + 1)

/--
The decimal of at most `n` digits on the grid `10 ^ k` nearest to `b`, if it reads back as `b`.
Values are compared after scaling everything to integers: `x`, the interval ends and the grid
points are all multiples of `2 ^ (q - 2)` and of `10 ^ k`.
-/
def gridCandidate (b : Binary) (k : Int) : Option Nat :=
  let (a2, b2) := pow2Parts (b.exponent - 2)
  let (a10, b10) := pow10Parts k
  -- a value `v · 2 ^ (q - 2)` scales to `v · a2 · b10`; a grid point `c · 10 ^ k` to `c · a10 · b2`
  let scaleX := a2 * b10
  let scaleC := a10 * b2
  let x := 4 * b.mantissa * scaleX
  let hi := (4 * b.mantissa + 2) * scaleX
  let lo := (if b.lowerGap then 4 * b.mantissa - 1 else 4 * b.mantissa - 2) * scaleX
  let even := b.mantissa % 2 == 0
  let inside (v : Nat) : Bool :=
    (lo < v || (lo == v && even)) && (v < hi || (v == hi && even))
  let c0 := x / scaleC
  let c1 := c0 + 1
  let v0 := c0 * scaleC
  let v1 := c1 * scaleC
  let ok0 := c0 > 0 && inside v0
  let ok1 := inside v1
  if ok0 && ok1 then
    let d0 := x - v0
    let d1 := v1 - x
    if d0 < d1 then some c0
    else if d1 < d0 then some c1
    else if c0 % 2 == 0 then some c0 else some c1
  else if ok0 then some c0
  else if ok1 then some c1
  else none

/-- Removes trailing zeros of `d`, raising the exponent `k` to match. -/
def stripZeros (d : Nat) (k : Int) (fuel : Nat) : Nat × Int :=
  match fuel with
  | 0 => (d, k)
  | fuel + 1 => if d > 0 && d % 10 == 0 then stripZeros (d / 10) (k + 1) fuel else (d, k)

/-- The shortest decimal `d · 10 ^ k` that reads back as `b`, with `d` free of trailing zeros. -/
def shortest (b : Binary) : Nat × Int :=
  let e := decimalExponent b
  let found := (List.range 17).findSome? (fun (i : Nat) => (gridCandidate b (e - (i : Int))).map (·, e - (i : Int)))
  let (d, k) := found.getD (b.mantissa, 0)
  stripZeros d k 400

/-- The digits of `d` as text. -/
def digitText (d : Nat) : String := toString d

/-- Positional text of `d · 10 ^ k` with no exponent and no trailing fraction zeros. -/
def positional (d : Nat) (k : Int) : String :=
  let ds := digitText d
  if k ≥ 0 then ds ++ String.ofList (List.replicate k.toNat '0')
  else
    let shift := k.natAbs
    if ds.length > shift then
      let whole := ds.take (ds.length - shift)
      let frac := ds.drop (ds.length - shift)
      whole.toString ++ "." ++ frac.toString
    else
      "0." ++ String.ofList (List.replicate (shift - ds.length) '0') ++ ds

/-- Exponent text of `d · 10 ^ k` as `D.DDDe±XX`, with at least `expWidth` exponent digits. -/
def withExponent (d : Nat) (k : Int) (expWidth : Nat) : String :=
  let ds := digitText d
  let e := k + (ds.length : Int) - 1
  let mant := if ds.length > 1 then (ds.take 1).toString ++ "." ++ (ds.drop 1).toString else ds
  let mag := toString e.natAbs
  let mag := String.ofList (List.replicate (expWidth - mag.length) '0') ++ mag
  mant ++ "e" ++ (if e < 0 then "-" else "+") ++ mag

/--
The text a number gets in JSON output: the shortest digits, positional for magnitudes from
`1e-6` up to below `1e21` and with an exponent (`1e+21`, `1e-7`) outside, `-0` for negative zero.
Infinities and NaN have no JSON text.
-/
def jsonText (x : Float) : Option String :=
  match Binary.ofFloat x with
  | (_, none) =>
    if x.isNaN || x.isInf then none
    else if x.toBits.toNat ≥ Nat.pow 2 63 then some "-0" else some "0"
  | (neg, some b) =>
    let (d, k) := shortest b
    let sign := if neg then "-" else ""
    let e := k + (digitCount d : Int) - 1
    if e < -6 || e ≥ 21 then some (sign ++ withExponent d k 1)
    else some (sign ++ positional d k)

/--
The text a number gets in plain display: the shortest digits, positional when the decimal
exponent is from `-4` to `5` and with a two-digit exponent (`1e+06`) otherwise.
-/
def displayText (x : Float) : String :=
  match Binary.ofFloat x with
  | (neg, none) =>
    if x.isNaN then "NaN"
    else if x.isInf then (if neg then "-Inf" else "+Inf")
    else if neg then "-0" else "0"
  | (neg, some b) =>
    let (d, k) := shortest b
    let sign := if neg then "-" else ""
    let e := k + (digitCount d : Int) - 1
    if e < -4 || e ≥ 6 then sign ++ withExponent d k 2
    else sign ++ positional d k

/--
The double nearest to `mantissa · 10 ^ exponent` (negated when `neg`). Exponents far enough out
that the value is surely zero or surely infinite are not expanded.
-/
def scientific (neg : Bool) (mantissa : Nat) (exponent : Int) : Float :=
  let mag : Float :=
    if mantissa == 0 then 0
    else
      let top := exponent + digitCount mantissa
      if top > 311 then Float.ofScientific 1 false 400
      else if top < -330 then 0
      else if exponent ≥ 0 then Float.ofScientific mantissa false exponent.toNat
      else Float.ofScientific mantissa true exponent.natAbs
  if neg then -mag else mag

end TurnRelay.Decimal
