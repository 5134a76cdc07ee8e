/-!
# Timestamps

A plain scalar that starts with four digits and `-` is a timestamp when it has one of these
forms, with one- or two-digit fields:

* `YYYY-M-D`;
* `YYYY-M-DTh:m:s`, `t` for `T` allowed, with a fraction of a second (after `.` or `,`), and
  then `Z` or an offset `+hh:mm` / `-hh:mm`;
* `YYYY-M-D h:m:s` with spaces between date and time, a fraction allowed, and no offset.

The fields must be in range: the month `1` to `12`, the day within its month (February has 29
days in leap years), the hour below 24, minutes and seconds below 60, and an offset of at most
24 hours and 60 minutes.

## Main definitions

* `isTimestamp`.
-/

namespace TurnRelay.Yaml

/-- Reads a field of one or two digits. -/
def shortField : List Char → Option (Nat × List Char)
  | a :: b :: rest =>
    if !a.isDigit then none
    else if b.isDigit then some ((a.toNat - 48) * 10 + (b.toNat - 48), rest)
    else some (a.toNat - 48, b :: rest)
  | [a] => if a.isDigit then some (a.toNat - 48, []) else none
  | [] => none

/-- Whether a year is a leap year. -/
def isLeapYear (y : Nat) : Bool := y % 4 == 0 && (y % 100 != 0 || y % 400 == 0)

/-- The number of days of a month (`1` to `12`) in a year. -/
def daysIn (month year : Nat) : Nat :=
  if month == 2 then (if isLeapYear year then 29 else 28)
  else if month == 4 || month == 6 || month == 9 || month == 11 then 30
  else 31

/-- Reads `YYYY-M-D`, checking the month and day; gives what follows. -/
def datePart (cs : List Char) : Option (List Char) := do
  let (ys, rest) := (cs.take 4, cs.drop 4)
  if ys.length != 4 || !ys.all Char.isDigit then none
  let year := ys.foldl (fun v d => v * 10 + (d.toNat - 48)) 0
  let rest ← match rest with
    | '-' :: r => some r
    | _ => none
  let (month, rest) ← shortField rest
  let rest ← match rest with
    | '-' :: r => some r
    | _ => none
  let (day, rest) ← shortField rest
  if month < 1 || month > 12 || day < 1 || day > daysIn month year then none
  return rest

/-- Drops a fraction of a second: `.` or `,` and at least one digit. -/
def dropFraction : List Char → List Char
  | c :: d :: rest =>
    if (c == '.' || c == ',') && d.isDigit then rest.dropWhile Char.isDigit else c :: d :: rest
  | cs => cs

/-- Reads `h:m:s` and a fraction, checking the ranges; gives what follows. -/
def timePart (cs : List Char) : Option (List Char) := do
  let (hour, rest) ← shortField cs
  let rest ← match rest with
    | ':' :: r => some r
    | _ => none
  let (minute, rest) ← shortField rest
  let rest ← match rest with
    | ':' :: r => some r
    | _ => none
  let (second, rest) ← shortField rest
  if hour ≥ 24 || minute ≥ 60 || second ≥ 60 then none
  return dropFraction rest

/-- Whether the text is exactly a zone: `Z`, or a sign and `hh:mm`. -/
def isZone : List Char → Bool
  | ['Z'] => true
  | [s, h1, h2, ':', m1, m2] =>
    (s == '+' || s == '-') && h1.isDigit && h2.isDigit && m1.isDigit && m2.isDigit &&
      (h1.toNat - 48) * 10 + (h2.toNat - 48) ≤ 24 && (m1.toNat - 48) * 10 + (m2.toNat - 48) ≤ 60
  | _ => false

/-- Whether a text is a timestamp in one of the accepted forms. -/
def isTimestamp (s : String) : Bool :=
  let cs := s.toList
  let lead := cs.takeWhile Char.isDigit
  if lead.length != 4 || (cs.drop 4).head? != some '-' then false
  else
    match datePart cs with
    | none => false
    | some [] => true
    | some (c :: rest) =>
      if c == 'T' || c == 't' then
        match timePart rest with
        | some zone => isZone zone
        | none => false
      else if c == ' ' then
        match timePart (rest.dropWhile (· == ' ')) with
        | some [] => true
        | _ => false
      else false

end TurnRelay.Yaml
