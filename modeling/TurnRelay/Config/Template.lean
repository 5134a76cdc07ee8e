import TurnRelay.Text.Utf8

/-!
# Environment references in a configuration text

Before a configuration file is read, references to environment variables in its text are
replaced, in one pass from left to right. A reference is `${NAME}` or `${NAME:DEFAULT}`: the
name is one or more characters other than `}` and `:`, the default any characters other than
`}`. It is replaced by the variable's value when the variable is set, even to the empty text,
and otherwise by the default (or nothing). A `${` that does not start a reference is kept as it
is, and what a reference is replaced by is not looked at again.

The text is taken as bytes, as the file holds them: the four characters that delimit a reference
are ASCII, and no byte of a longer UTF-8 sequence is ASCII, so reading bytes finds the same
references as reading characters, and bytes that are not UTF-8 pass through unchanged. A name
that is not UTF-8 names no variable.

## Main definitions

* `Reference`, `reference?`: the reference at the start of a text.
* `firstReference`, `replaceMatch`, `expandBytes`, `expandReferences`, `referencedNames`.
-/

namespace TurnRelay.Config

/-- The bytes of `$`, `{`, `}` and `:`. -/
def dollarByte : UInt8 := 0x24

@[inherit_doc dollarByte]
def openByte : UInt8 := 0x7B

@[inherit_doc dollarByte]
def closeByte : UInt8 := 0x7D

@[inherit_doc dollarByte]
def colonByte : UInt8 := 0x3A

/-- A reference to an environment variable, and the bytes after it. -/
structure Reference where
  name : List UInt8
  fallback : Option (List UInt8)
  rest : List UInt8

/-- Whether a byte may be part of a variable's name. -/
def isNameByte (b : UInt8) : Bool := b != closeByte && b != colonByte

/-- The bytes of a default up to the closing brace, and those after the brace. -/
def closeDefault (tail : List UInt8) : Option (List UInt8 × List UInt8) :=
  match tail.dropWhile (· != closeByte) with
  | _ :: rest => some (tail.takeWhile (· != closeByte), rest)
  | [] => none

/-- The reference at the start of a text, if one starts there. -/
def reference? : List UInt8 → Option Reference
  | d :: o :: body =>
    if d == dollarByte && o == openByte then
      let name := body.takeWhile isNameByte
      if name.isEmpty then none
      else
        match body.dropWhile isNameByte with
        | c :: rest =>
          if c == closeByte then some ⟨name, none, rest⟩
          else
            match closeDefault rest with
            | some (fallback, after) => some ⟨name, some fallback, after⟩
            | none => none
        | [] => none
    else none
  | _ => none

/-- What follows a closed default is shorter than what it starts in. -/
theorem closeDefault_rest_lt {tail fallback after : List UInt8}
    (h : closeDefault tail = some (fallback, after)) : after.length < tail.length + 1 := by
  unfold closeDefault at h
  have hs := (List.dropWhile_suffix (· != closeByte) (l := tail)).length_le
  split at h
  next rest heq =>
    rw [heq] at hs
    simp only [Option.some.injEq, Prod.mk.injEq] at h
    rw [← h.2]
    simp only [List.length_cons] at hs
    omega
  next => simp at h

/-- What follows a reference is shorter than the text it starts. -/
theorem reference?_rest_lt {cs : List UInt8} {r : Reference} (h : reference? cs = some r) :
    r.rest.length < cs.length := by
  unfold reference? at h
  split at h
  next d o body =>
    have hb := (List.dropWhile_suffix isNameByte (l := body)).length_le
    simp only [List.length_cons]
    split at h
    · dsimp only at h
      split at h
      · simp at h
      · split at h
        next c rest heq =>
          rw [heq] at hb
          simp only [List.length_cons] at hb
          split at h
          · simp only [Option.some.injEq] at h
            subst h
            dsimp only
            omega
          · split at h
            next fallback after hd =>
              have := closeDefault_rest_lt hd
              simp only [Option.some.injEq] at h
              subst h
              dsimp only
              omega
            next => simp at h
        next => simp at h
    · simp at h
  next => simp at h

/-- The value a reference is replaced by: the variable's value when set, else the default. -/
def Reference.value (lookup : String → Option String) (r : Reference) : List UInt8 :=
  let bytes : ByteArray := ⟨r.name.toArray⟩
  let found := if Utf8.isValid bytes then lookup (Utf8.decodeLossy bytes) else none
  match found with
  | some v => v.toUTF8.toList
  | none => r.fallback.getD []

/-- The first reference in a text, searched for from the left: the bytes before it, and the
reference read where it starts. -/
def firstReference : List UInt8 → Option (List UInt8 × Reference)
  | [] => none
  | c :: rest =>
    match reference? (c :: rest) with
    | some r => some ([], r)
    | none => (firstReference rest).map fun found => (c :: found.1, found.2)

/-- The bytes before the first reference and those after it are fewer than the text. -/
theorem firstReference_rest_lt {cs before : List UInt8} {r : Reference}
    (h : firstReference cs = some (before, r)) : before.length + r.rest.length < cs.length := by
  induction cs generalizing before with
  | nil => simp [firstReference] at h
  | cons c rest ih =>
    unfold firstReference at h
    split at h
    next r' hr =>
      simp only [Option.some.injEq, Prod.mk.injEq] at h
      obtain ⟨rfl, rfl⟩ := h
      have := reference?_rest_lt hr
      simp only [List.length_nil]
      omega
    next =>
      cases hrest : firstReference rest with
      | none => simp [hrest] at h
      | some found =>
        simp only [hrest, Option.map_some, Option.some.injEq, Prod.mk.injEq] at h
        obtain ⟨rfl, rfl⟩ := h
        have := ih (show firstReference rest = some (found.1, found.2) by rw [hrest])
        simp only [List.length_cons]
        omega

/-- What the bytes a reference matched are replaced by. They are searched again on their own: the
first reference in them names the variable and gives the default. Bytes in which none is found
stay as they are. -/
def replaceMatch (lookup : String → Option String) (matched : List UInt8) : List UInt8 :=
  match firstReference matched with
  | some (_, r) => r.value lookup
  | none => matched

/-- Replaces the references in a text, from left to right: the bytes before the first reference
stay, the bytes the reference matched are replaced, and the search goes on after them, so what
replaced a reference is not searched again. -/
def expandBytes (lookup : String → Option String) (cs : List UInt8) : List UInt8 :=
  match h : firstReference cs with
  | some (before, r) =>
    have := firstReference_rest_lt h
    let matched := (cs.drop before.length).take (cs.length - before.length - r.rest.length)
    before ++ replaceMatch lookup matched ++ expandBytes lookup r.rest
  | none => cs
termination_by cs.length
decreasing_by omega

/-- A configuration text with its environment references replaced. -/
def expandReferences (lookup : String → Option String) (text : ByteArray) : ByteArray :=
  ⟨(expandBytes lookup text.toList).toArray⟩

/-- The names of the variables a text refers to, from left to right; names that are not UTF-8
are left out. -/
def referencedNamesIn : List UInt8 → List String
  | [] => []
  | c :: rest =>
    match h : reference? (c :: rest) with
    | some r =>
      have := reference?_rest_lt h
      let bytes : ByteArray := ⟨r.name.toArray⟩
      (if Utf8.isValid bytes then [Utf8.decodeLossy bytes] else []) ++ referencedNamesIn r.rest
    | none => referencedNamesIn rest
termination_by cs => cs.length
decreasing_by
  all_goals first
    | omega
    | (simp only [List.length_cons]; omega)

/-- The names of the variables a configuration text refers to. -/
def referencedNames (text : ByteArray) : List String := referencedNamesIn text.toList

end TurnRelay.Config
