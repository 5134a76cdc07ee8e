import TurnRelay.Text.Quote

/-!
# Durations

A duration is written as a sign and one or more parts, each a decimal number (with a point
allowed) and a unit: `ns`, `us` (or `µs`, `μs`), `ms`, `s`, `m`, `h`; `0` alone is zero. The
value is counted in nanoseconds and must fit a signed 64-bit number. A fraction is scaled to its
unit in floating point and truncated, which is exact to the nanosecond up to fractions of hours.

## Main definitions

* `DurationError` and its message.
* `parseDuration`: the nanoseconds a text stands for.
-/

namespace TurnRelay.Decimal

/-- Why a text is not a duration. -/
inductive DurationError where
  | invalid
  | missingUnit
  /-- The unit is not one of the known units. -/
  | unknownUnit (unit : String)
  deriving DecidableEq, Repr

/-- A text between quotes, non-ASCII bytes escaped. -/
def durationQuote (s : String) : String := Text.quoteAsciiBytes s.toUTF8

/-- The message of a text `orig` that is not a duration. -/
def DurationError.message (orig : String) : DurationError → String
  | .invalid => "time: invalid duration " ++ durationQuote orig
  | .missingUnit => "time: missing unit in duration " ++ durationQuote orig
  | .unknownUnit u =>
    "time: unknown unit " ++ durationQuote u ++ " in duration " ++ durationQuote orig

/-- The nanoseconds in one of a unit. -/
def unitNanos (u : String) : Option Nat :=
  if u == "ns" then some 1
  else if u == "us" || u == "\u00B5s" || u == "\u03BCs" then some 1000
  else if u == "ms" then some 1000000
  else if u == "s" then some 1000000000
  else if u == "m" then some 60000000000
  else if u == "h" then some 3600000000000
  else none

/-- `2 ^ 63`, one past the largest duration. -/
def durationBound : Nat := Nat.pow 2 63

/-- Reads the digits before a point; none when the value passes `2 ^ 63`. -/
def leadingInt : List Char → Nat → Option (Nat × List Char)
  | [], x => some (x, [])
  | c :: rest, x =>
    if !c.isDigit then some (x, c :: rest)
    else if x > durationBound / 10 then none
    else
      let x := x * 10 + (c.toNat - 48)
      if x > durationBound then none else leadingInt rest x

/-- Reads the digits after a point: their value, and the power of ten it is to be divided by.
Digits past what fits are passed over. -/
def leadingFraction : List Char → Nat → Float → Bool → Nat × Float × List Char
  | [], x, scale, _ => (x, scale, [])
  | c :: rest, x, scale, full =>
    if !c.isDigit then (x, scale, c :: rest)
    else if full then leadingFraction rest x scale true
    else if x > (durationBound - 1) / 10 then leadingFraction rest x scale true
    else
      let y := x * 10 + (c.toNat - 48)
      if y > durationBound then leadingFraction rest x scale true
      else leadingFraction rest y (scale * 10) false

/-- Reads the parts of a duration, adding their nanoseconds to `total`; each part takes at
least one character, so `fuel` above the length of the text is enough. -/
def durationParts : Nat → List Char → Nat → Except DurationError Nat
  | _, [], total => .ok total
  | 0, _ :: _, _ => .error .invalid
  | fuel + 1, c :: rest, total =>
    if !(c == '.' || c.isDigit) then .error .invalid
    else
      match leadingInt (c :: rest) 0 with
      | none => .error .invalid
      | some (v, afterInt) =>
        let pre := afterInt.length != (c :: rest).length
        let (f, scale, afterFrac, post) :=
          match afterInt with
          | '.' :: r =>
            let (f, scale, r') := leadingFraction r 0 1 false
            (f, scale, r', r'.length != r.length)
          | r => (0, 1, r, false)
        if !pre && !post then .error .invalid
        else
          let u := afterFrac.takeWhile fun c => !(c == '.' || c.isDigit)
          if u.isEmpty then .error .missingUnit
          else
            match unitNanos (String.ofList u) with
            | none => .error (.unknownUnit (String.ofList u))
            | some unit =>
              if v > durationBound / unit then .error .invalid
              else
                let v := v * unit
                let v := if f > 0 then
                    v + (Float.ofNat f * (Float.ofNat unit / scale)).toUInt64.toNat
                  else v
                if v > durationBound || total + v > durationBound then .error .invalid
                else durationParts fuel (afterFrac.drop u.length) (total + v)

/-- The nanoseconds a duration text stands for. -/
def parseDuration (orig : String) : Except DurationError Int :=
  let cs := orig.toList
  let (neg, body) :=
    match cs with
    | '-' :: rest => (true, rest)
    | '+' :: rest => (false, rest)
    | _ => (false, cs)
  if body == ['0'] then .ok 0
  else if body.isEmpty then .error .invalid
  else
    match durationParts (body.length + 1) body 0 with
    | .error e => .error e
    | .ok d =>
      if neg then .ok (-(d : Int))
      else if d > durationBound - 1 then .error .invalid
      else .ok d

end TurnRelay.Decimal
