import Mathlib
import TurnRelay.Config.Template
import TurnRelay.Proofs.Text.ValidUtf8

/-!
# Replacing environment references

A reference is `${NAME}` or `${NAME:DEFAULT}`: the name one or more bytes other than `}` and `:`,
the default any bytes other than `}` (`IsReference`, `referenceText`). Since neither name nor
default holds a `}`, a reference ends at the first `}` after its `${`, so at most one reference
starts at any place of a text, and reading it there looks at nothing after it
(`reference?_eq_some_iff`).

`Expands` says what replacing references means, in one pass from the left: where a reference
starts, it is replaced by the value of its variable when the variable is set, even to the empty
text, and otherwise by its default or nothing (`Replaces`), and the pass goes on after it; where
none starts, the byte is copied. What replaced a reference is not read again. Main statement,
`expandReferences_eq_iff`: the expansion of a configuration text is exactly the output `Expands`
allows, and searching a matched reference's bytes again on their own finds the same name and
default.

The expansion searches for the first reference and hands its bytes to `replaceMatch`, which
searches them again. Both searches are brought back to reading a reference at the front
(`expandBytes_of_reference`, `expandBytes_cons_of_none`), which is the shape of `Expands`.
-/

namespace TurnRelay.Config

/-! ## The grammar of a reference -/

/-- The bytes of a reference: `${`, the name, then `}`, or `:`, the default and `}`. -/
def referenceText (name : List UInt8) : Option (List UInt8) → List UInt8
  | none => [dollarByte, openByte] ++ name ++ [closeByte]
  | some fallback => [dollarByte, openByte] ++ name ++ [colonByte] ++ fallback ++ [closeByte]

/-- A well-formed reference: a name of one or more bytes, none of them `}` or `:`, and a default,
if there is one, without `}`. -/
structure IsReference (name : List UInt8) (fallback : Option (List UInt8)) : Prop where
  name_ne_nil : name ≠ []
  name_bytes : ∀ b ∈ name, b ≠ closeByte ∧ b ≠ colonByte
  fallback_bytes : ∀ d ∈ fallback, ∀ b ∈ d, b ≠ closeByte

/-- No reference starts at the front of a text. -/
def NoReferenceAt (cs : List UInt8) : Prop :=
  ∀ name fallback rest, IsReference name fallback → cs ≠ referenceText name fallback ++ rest

/-- What a reference is replaced by: the value of the variable whose name's UTF-8 bytes are the
reference's name, when that variable is set (even to the empty text); otherwise the default, or
nothing when there is none. -/
inductive Replaces (lookup : String → Option String) (name : List UInt8)
    (fallback : Option (List UInt8)) : List UInt8 → Prop
  | value {n v : String} : n.toUTF8.data.toList = name → lookup n = some v →
      Replaces lookup name fallback v.toUTF8.data.toList
  | fallback : (∀ n : String, n.toUTF8.data.toList = name → lookup n = none) →
      Replaces lookup name fallback (fallback.getD [])

/-- `Expands lookup cs out`: reading `cs` once from the left gives `out`. A reference that starts
at the front is replaced and the reading goes on after it; a byte at which none starts is copied. -/
inductive Expands (lookup : String → Option String) : List UInt8 → List UInt8 → Prop
  | nil : Expands lookup [] []
  | reference {name : List UInt8} {fallback : Option (List UInt8)} {rest value out : List UInt8} :
      IsReference name fallback → Replaces lookup name fallback value → Expands lookup rest out →
      Expands lookup (referenceText name fallback ++ rest) (value ++ out)
  | copy {c : UInt8} {rest out : List UInt8} : NoReferenceAt (c :: rest) →
      Expands lookup rest out → Expands lookup (c :: rest) (c :: out)

/-! ## Reading a reference at the front -/

theorem isNameByte_of_ne {b : UInt8} (h : b ≠ closeByte ∧ b ≠ colonByte) : isNameByte b = true := by
  simp [isNameByte, h.1, h.2]

theorem isNameByte_close : isNameByte closeByte = false := by decide

theorem isNameByte_colon : isNameByte colonByte = false := by decide

/-- Reading while `p` holds stops at the first byte where it fails. -/
theorem span_of_stop {p : UInt8 → Bool} {pre rest : List UInt8} {c : UInt8}
    (hpre : ∀ b ∈ pre, p b = true) (hc : p c = false) :
    (pre ++ c :: rest).takeWhile p = pre ∧ (pre ++ c :: rest).dropWhile p = c :: rest := by
  have hstop : ¬p c = true := by simp [hc]
  rw [List.takeWhile_append_of_pos hpre, List.dropWhile_append_of_pos hpre,
    List.takeWhile_cons_of_neg hstop, List.dropWhile_cons_of_neg hstop, List.append_nil]
  exact ⟨rfl, rfl⟩

/-- Where reading while `p` holds stops, the byte there fails `p`. -/
theorem split_of_dropWhile {p : UInt8 → Bool} {l rest : List UInt8} {c : UInt8}
    (h : l.dropWhile p = c :: rest) :
    l = l.takeWhile p ++ c :: rest ∧ p c = false ∧ ∀ b ∈ l.takeWhile p, p b = true := by
  refine ⟨by rw [← h, List.takeWhile_append_dropWhile], ?_, fun b hb => List.mem_takeWhile_imp hb⟩
  have := List.head_dropWhile_not p (l := l) (by simp [h])
  simpa [h] using this

/-- A name stops at a `}` or a `:`, after bytes that are neither. -/
theorem name_stop {body tail : List UInt8} {c : UInt8}
    (hdrop : body.dropWhile isNameByte = c :: tail) :
    body = body.takeWhile isNameByte ++ c :: tail ∧ (c = closeByte ∨ c = colonByte) ∧
      ∀ b ∈ body.takeWhile isNameByte, b ≠ closeByte ∧ b ≠ colonByte := by
  obtain ⟨hbody, hc, hbytes⟩ := split_of_dropWhile hdrop
  refine ⟨hbody, ?_, fun b hb => ?_⟩
  · simp only [isNameByte, Bool.and_eq_false_iff, bne_eq_false_iff_eq] at hc
    exact hc
  · simpa only [isNameByte, Bool.and_eq_true, bne_iff_ne] using hbytes b hb

/-- A default is closed exactly when a `}` follows bytes that hold none. -/
theorem closeDefault_eq_some_iff {tail fallback after : List UInt8} :
    closeDefault tail = some (fallback, after) ↔
      (∀ b ∈ fallback, b ≠ closeByte) ∧ tail = fallback ++ closeByte :: after := by
  constructor
  · intro h
    unfold closeDefault at h
    split at h
    next c rest hdrop =>
      simp only [Option.some.injEq, Prod.mk.injEq] at h
      obtain ⟨rfl, rfl⟩ := h
      obtain ⟨hsplit, hc, hbytes⟩ := split_of_dropWhile hdrop
      have hclose : c = closeByte := by simpa using hc
      subst hclose
      exact ⟨fun b hb => by simpa using hbytes b hb, hsplit⟩
    next => cases h
  · rintro ⟨hbytes, rfl⟩
    have hspan := @span_of_stop (· != closeByte) fallback after closeByte
      (fun b hb => by simpa using hbytes b hb) (by simp)
    simp [closeDefault, hspan.1, hspan.2]

/-- A well-formed reference reads as itself, whatever follows it. -/
theorem reference?_referenceText {name : List UInt8} {fallback : Option (List UInt8)}
    (h : IsReference name fallback) (rest : List UInt8) :
    reference? (referenceText name fallback ++ rest) = some ⟨name, fallback, rest⟩ := by
  have hname : ∀ b ∈ name, isNameByte b = true := fun b hb => isNameByte_of_ne (h.name_bytes b hb)
  have hne : (name.isEmpty) = false := by simpa using h.name_ne_nil
  have hdollar : (dollarByte == dollarByte && openByte == openByte) = true := by decide
  cases fallback with
  | none =>
    obtain ⟨htake, hdrop⟩ := @span_of_stop isNameByte name rest closeByte hname isNameByte_close
    have htext : referenceText name none ++ rest =
        dollarByte :: openByte :: (name ++ closeByte :: rest) := by
      simp [referenceText]
    have hclose : (closeByte == closeByte) = true := by decide
    rw [htext]
    simp only [reference?, hdollar, htake, hdrop, hne, hclose, if_true, Bool.false_eq_true,
      if_false]
  | some d =>
    obtain ⟨htake, hdrop⟩ :=
      @span_of_stop isNameByte name (d ++ closeByte :: rest) colonByte hname isNameByte_colon
    have hdefault : closeDefault (d ++ closeByte :: rest) = some (d, rest) :=
      closeDefault_eq_some_iff.2 ⟨h.fallback_bytes d rfl, rfl⟩
    have htext : referenceText name (some d) ++ rest =
        dollarByte :: openByte :: (name ++ colonByte :: (d ++ closeByte :: rest)) := by
      simp [referenceText]
    have hcolon : (colonByte == closeByte) = false := by decide
    rw [htext]
    simp only [reference?, hdollar, htake, hdrop, hne, hcolon, hdefault, if_true,
      Bool.false_eq_true, if_false]

/-- A reference is read at the front of a text exactly when the text starts with a well-formed
reference's bytes, and then it is that reference. -/
theorem reference?_eq_some_iff {cs : List UInt8} {r : Reference} :
    reference? cs = some r ↔
      IsReference r.name r.fallback ∧ cs = referenceText r.name r.fallback ++ r.rest := by
  constructor
  · intro h
    unfold reference? at h
    split at h
    next d o body =>
      split at h
      · next hdo =>
        have hd : d = dollarByte ∧ o = openByte := by simpa using hdo
        obtain ⟨rfl, rfl⟩ := hd
        dsimp only at h
        split at h
        · cases h
        · next hname =>
          split at h
          next c tail hdrop =>
            obtain ⟨hbody, hc, hname'⟩ := name_stop hdrop
            have hnil : body.takeWhile isNameByte ≠ [] := by simpa using hname
            split at h
            · -- the name is closed at once
              next hclose =>
              have hclose' : c = closeByte := by simpa using hclose
              simp only [Option.some.injEq] at h
              subst h
              refine ⟨⟨hnil, hname', by simp⟩, ?_⟩
              conv_lhs => rw [hbody, hclose']
              simp [referenceText]
            · -- a default follows the name's colon
              next hnotclose =>
              have hcolon : c = colonByte := hc.resolve_left (by simpa using hnotclose)
              split at h
              next fallback after hdefault =>
                obtain ⟨hfallback, htail⟩ := closeDefault_eq_some_iff.1 hdefault
                simp only [Option.some.injEq] at h
                subst h
                refine ⟨⟨hnil, hname', by simpa using hfallback⟩, ?_⟩
                conv_lhs => rw [hbody, hcolon, htail]
                simp [referenceText]
              next => cases h
          next => cases h
      · cases h
    next => cases h
  · rintro ⟨h, hcs⟩
    rw [hcs, reference?_referenceText h]

/-- No reference starts at the front exactly when none is read there. -/
theorem noReferenceAt_iff {cs : List UInt8} : NoReferenceAt cs ↔ reference? cs = none := by
  constructor
  · intro h
    cases hr : reference? cs with
    | none => rfl
    | some r =>
      obtain ⟨hwf, hcs⟩ := reference?_eq_some_iff.1 hr
      exact absurd hcs (h _ _ _ hwf)
  · intro h name fallback rest hwf hcs
    rw [hcs, reference?_referenceText hwf] at h
    cases h

/-! ## The two searches -/

/-- Searching a text that starts with a reference finds it at once. -/
theorem firstReference_of_reference? {cs : List UInt8} {r : Reference} (h : reference? cs = some r) :
    firstReference cs = some ([], r) := by
  cases cs with
  | nil => cases h
  | cons c rest => simp [firstReference, h]

/-- Searching past a byte at which no reference starts. -/
theorem firstReference_cons_of_none {c : UInt8} {rest : List UInt8}
    (h : reference? (c :: rest) = none) :
    firstReference (c :: rest) = (firstReference rest).map fun found => (c :: found.1, found.2) := by
  simp [firstReference, h]

/-- Searching a reference's own bytes again finds the same name and default. -/
theorem firstReference_referenceText {name : List UInt8} {fallback : Option (List UInt8)}
    (h : IsReference name fallback) :
    firstReference (referenceText name fallback) = some ([], ⟨name, fallback, []⟩) := by
  have hread := reference?_referenceText h []
  rw [List.append_nil] at hread
  exact firstReference_of_reference? hread

/-- The bytes a reference matched are replaced by its value. -/
theorem replaceMatch_referenceText (lookup : String → Option String) {r : Reference}
    (h : IsReference r.name r.fallback) :
    replaceMatch lookup (referenceText r.name r.fallback) = r.value lookup := by
  rw [replaceMatch, firstReference_referenceText h]
  rfl

theorem expandBytes_of_first {lookup : String → Option String} {cs before : List UInt8}
    {r : Reference} (h : firstReference cs = some (before, r)) :
    expandBytes lookup cs =
      before ++ replaceMatch lookup
        ((cs.drop before.length).take (cs.length - before.length - r.rest.length)) ++
        expandBytes lookup r.rest := by
  rw [expandBytes]
  split
  · next before' r' h' =>
    rw [h] at h'
    simp only [Option.some.injEq, Prod.mk.injEq] at h'
    obtain ⟨rfl, rfl⟩ := h'
    rfl
  · next h' => simp [h] at h'

theorem expandBytes_of_first_none {lookup : String → Option String} {cs : List UInt8}
    (h : firstReference cs = none) : expandBytes lookup cs = cs := by
  rw [expandBytes]
  split
  · next before r h' => simp [h] at h'
  · rfl

/-- A reference at the front is replaced by its value, and the rest expanded after it. -/
theorem expandBytes_of_reference (lookup : String → Option String) {cs : List UInt8}
    {r : Reference} (h : reference? cs = some r) :
    expandBytes lookup cs = r.value lookup ++ expandBytes lookup r.rest := by
  obtain ⟨hwf, hcs⟩ := reference?_eq_some_iff.1 h
  rw [expandBytes_of_first (firstReference_of_reference? h)]
  -- the matched bytes are the reference's own
  have hmatched : (cs.drop ([] : List UInt8).length).take
      (cs.length - ([] : List UInt8).length - r.rest.length) = referenceText r.name r.fallback := by
    rw [hcs]
    simp
  rw [hmatched, replaceMatch_referenceText lookup hwf, List.nil_append]

/-- A byte at which no reference starts is kept, and the rest expanded after it. -/
theorem expandBytes_cons_of_none (lookup : String → Option String) {c : UInt8} {rest : List UInt8}
    (h : reference? (c :: rest) = none) :
    expandBytes lookup (c :: rest) = c :: expandBytes lookup rest := by
  cases hfirst : firstReference rest with
  | none =>
    have hnone : firstReference (c :: rest) = none := by
      rw [firstReference_cons_of_none h, hfirst, Option.map_none]
    rw [expandBytes_of_first_none hnone, expandBytes_of_first_none hfirst]
  | some found =>
    obtain ⟨before, r⟩ := found
    have hsome : firstReference (c :: rest) = some (c :: before, r) := by
      rw [firstReference_cons_of_none h, hfirst, Option.map_some]
    rw [expandBytes_of_first hsome, expandBytes_of_first hfirst]
    simp only [List.length_cons, List.drop_succ_cons, List.cons_append, Nat.add_sub_add_right]

theorem expandBytes_nil (lookup : String → Option String) : expandBytes lookup [] = [] :=
  expandBytes_of_first_none rfl

/-! ## The value of a variable -/

/-- A string is the only one with its UTF-8 bytes. -/
theorem eq_of_toUTF8_data {s t : String} (h : s.toUTF8.data.toList = t.toUTF8.data.toList) :
    s = t := by
  have hbytes : s.toUTF8 = t.toUTF8 := by
    apply ByteArray.ext
    exact Array.ext' h
  rw [← Utf8.decodeLossy_toUTF8 s, hbytes, Utf8.decodeLossy_toUTF8]

/-- The bytes of a string name that string. -/
theorem name_of_toUTF8 {n : String} {name : List UInt8} (h : n.toUTF8.data.toList = name) :
    Utf8.isValid ⟨name.toArray⟩ = true ∧ Utf8.decodeLossy ⟨name.toArray⟩ = n := by
  have hbytes : (⟨name.toArray⟩ : ByteArray) = n.toUTF8 := by
    apply ByteArray.ext
    exact Array.ext' (by simpa using h.symm)
  rw [hbytes]
  exact ⟨Utf8.isValid_toUTF8 n, Utf8.decodeLossy_toUTF8 n⟩

theorem toList_eq_data (bs : ByteArray) : bs.toList = bs.data.toList := by
  have hloop : ∀ i acc, ByteArray.toList.loop bs i acc = acc.reverse ++ bs.data.toList.drop i := by
    intro i acc
    induction i, acc using ByteArray.toList.loop.induct bs with
    | case1 i acc hi ih =>
      rw [ByteArray.toList.loop, if_pos hi, ih]
      have hdrop : bs.data.toList.drop i = bs.data[i] :: bs.data.toList.drop (i + 1) := by
        rw [List.drop_eq_getElem_cons (by simpa using hi)]
        rfl
      rw [hdrop]
      simp [ByteArray.get!, hi]
    | case2 i acc hi =>
      rw [ByteArray.toList.loop, if_neg hi]
      have hdrop : bs.data.toList.drop i = [] := List.drop_of_length_le (by simpa using hi)
      simp [hdrop]
  rw [ByteArray.toList, hloop]
  rfl

/-- The variable a reference's name names is found exactly when the name is the bytes of a
string whose variable is set; bytes that are no string's name no variable. -/
theorem lookupName_eq_some_iff (lookup : String → Option String) (name : List UInt8) (v : String) :
    (if Utf8.isValid ⟨name.toArray⟩ then lookup (Utf8.decodeLossy ⟨name.toArray⟩) else none) =
        some v ↔
      ∃ n : String, n.toUTF8.data.toList = name ∧ lookup n = some v := by
  by_cases hvalid : Utf8.isValid ⟨name.toArray⟩ = true
  · -- the name is the UTF-8 bytes of one string
    obtain ⟨n, hn⟩ := (Utf8.isValid_iff _).mp hvalid
    have hname : n.toUTF8.data.toList = name := by rw [hn]
    have hdecode : Utf8.decodeLossy ⟨name.toArray⟩ = n := by rw [← hn, Utf8.decodeLossy_toUTF8]
    rw [if_pos hvalid, hdecode]
    constructor
    · exact fun h => ⟨n, hname, h⟩
    · rintro ⟨m, hm, hv⟩
      rwa [← eq_of_toUTF8_data (hm.trans hname.symm)]
  · rw [if_neg hvalid]
    simp only [reduceCtorEq, false_iff, not_exists, not_and]
    exact fun m hm => absurd (name_of_toUTF8 hm).1 hvalid

/-- A reference's value is what `Replaces` says it is replaced by, and nothing else. -/
theorem replaces_iff_value (lookup : String → Option String) (r : Reference) (value : List UInt8) :
    Replaces lookup r.name r.fallback value ↔ value = r.value lookup := by
  unfold Reference.value
  dsimp only
  generalize hfound : (if Utf8.isValid ⟨r.name.toArray⟩ then
    lookup (Utf8.decodeLossy ⟨r.name.toArray⟩) else none) = found
  have hiff : ∀ v, found = some v ↔ ∃ n : String, n.toUTF8.data.toList = r.name ∧ lookup n = some v := by
    intro v
    rw [← hfound]
    exact lookupName_eq_some_iff lookup r.name v
  -- split on whether the name's variable is found
  cases found with
  | some v =>
    obtain ⟨n, hn, hv⟩ := (hiff v).mp rfl
    dsimp only
    rw [toList_eq_data]
    constructor
    · rintro (@⟨m, w, hm, hw⟩ | hnone)
      · cases (hiff w).mpr ⟨m, hm, hw⟩
        rfl
      · simp [hnone n hn] at hv
    · rintro rfl
      exact .value hn hv
  | none =>
    dsimp only
    constructor
    · rintro (@⟨m, w, hm, hw⟩ | -)
      · cases (hiff w).mpr ⟨m, hm, hw⟩
      · rfl
    · rintro rfl
      refine .fallback fun m hm => Option.eq_none_iff_forall_ne_some.mpr fun w hw => ?_
      cases (hiff w).mpr ⟨m, hm, hw⟩

/-! ## The expansion -/

/-- The expansion reads as `Expands` says. -/
theorem expands_expandBytes (lookup : String → Option String) (cs : List UInt8) :
    Expands lookup cs (expandBytes lookup cs) := by
  -- induction on the length: a reference is skipped whole, a byte at a time otherwise
  induction h : cs.length using Nat.strong_induction_on generalizing cs with
  | _ n ih =>
    cases cs with
    | nil => rw [expandBytes_nil]; exact .nil
    | cons c rest =>
      cases hr : reference? (c :: rest) with
      | some r =>
        obtain ⟨hwf, hcs⟩ := reference?_eq_some_iff.1 hr
        have hlt := reference?_rest_lt hr
        rw [expandBytes_of_reference lookup hr, hcs]
        exact .reference hwf ((replaces_iff_value lookup r _).mpr rfl)
          (ih _ (h ▸ hlt) r.rest rfl)
      | none =>
        rw [expandBytes_cons_of_none lookup hr]
        exact .copy (noReferenceAt_iff.2 hr) (ih _ (by simp [← h]) rest rfl)

/-- What `Expands` allows is the expansion. -/
theorem expandBytes_of_expands {lookup : String → Option String} {cs out : List UInt8}
    (h : Expands lookup cs out) : expandBytes lookup cs = out := by
  induction h with
  | nil => exact expandBytes_nil lookup
  | @reference name fallback rest value out hwf hvalue _ ih =>
    rw [expandBytes_of_reference lookup (reference?_referenceText hwf rest), ih]
    have := (replaces_iff_value lookup ⟨name, fallback, rest⟩ value).mp hvalue
    rw [this]
  | @copy c rest out hno _ ih =>
    rw [expandBytes_cons_of_none lookup (noReferenceAt_iff.1 hno), ih]

/-- A configuration text's references are replaced in one pass from the left: the expansion is
exactly the output `Expands` allows. Where a reference `${NAME}` or `${NAME:DEFAULT}` starts, it
is replaced by the value of the variable `NAME` when that variable is set, even to the empty text,
and otherwise by `DEFAULT`, or nothing; the pass goes on after it, so what replaced it is never
read again; every other byte is copied. Searching a reference's matched bytes again on their own
finds the same name and default. -/
theorem expandReferences_eq_iff (lookup : String → Option String) (text : ByteArray)
    (out : List UInt8) :
    ((expandReferences lookup text).data.toList = out ↔ Expands lookup text.data.toList out) ∧
      ∀ (name : List UInt8) (fallback : Option (List UInt8)), IsReference name fallback →
        firstReference (referenceText name fallback) = some ([], ⟨name, fallback, []⟩) := by
  refine ⟨?_, fun name fallback h => firstReference_referenceText h⟩
  have hexp : (expandReferences lookup text).data.toList = expandBytes lookup text.data.toList := by
    simp [expandReferences, toList_eq_data]
  rw [hexp]
  exact ⟨fun h => h ▸ expands_expandBytes lookup _, expandBytes_of_expands⟩

end TurnRelay.Config
